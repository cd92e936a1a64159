import ComputePool.Foundations.Dict
import ComputePool.Protocol.Session

/-!
# The nonce book

`NonceBook` of `agent/access/nonce.py`: each accepted nonce is remembered for `ttl` seconds and
refused while it is remembered. Expired nonces are forgotten at every `accept` and at every
sweep of the session grants.
-/

namespace ComputePool.Agent

open Text Protocol

/-- The nonces seen, each with the moment it is forgotten. -/
structure NonceBook where
  ttl : ℚ := nonceTtlSeconds
  seen : Dict Str ℚ := []
  deriving Repr

namespace NonceBook

/-- `well_formed` of `agent/access/nonce.py`; the pattern is the one of the protocol. -/
def wellFormed (nonce : Str) : Bool :=
  matchesToEnd hex64 nonce

/-- `expire` at `moment`. -/
def expire (book : NonceBook) (moment : ℚ) : NonceBook :=
  { book with seen := book.seen.filter fun e => moment < e.2 }

/-- `accept` at `moment`. -/
def accept (book : NonceBook) (nonce : Str) (moment : ℚ) : Bool × NonceBook :=
  if wellFormed nonce then
    let book := book.expire moment
    if nonce ∈ book.seen.keys then (false, book)
    else (true, { book with seen := book.seen.set nonce (moment + book.ttl) })
  else (false, book)

theorem mem_expire {book : NonceBook} {moment : ℚ} {e : Str × ℚ} :
    e ∈ (book.expire moment).seen ↔ e ∈ book.seen ∧ moment < e.2 := by
  simp [expire]

@[simp]
theorem ttl_expire (book : NonceBook) (moment : ℚ) : (book.expire moment).ttl = book.ttl := rfl

/-- The time nonces are kept for is never changed. -/
@[simp]
theorem ttl_accept (book : NonceBook) (nonce : Str) (moment : ℚ) :
    (book.accept nonce moment).2.ttl = book.ttl := by
  unfold accept
  dsimp only
  split_ifs <;> rfl

/-- An entry that is not due is kept by `accept`. -/
theorem mem_accept_of_mem {book : NonceBook} {nonce : Str} {moment : ℚ} {e : Str × ℚ}
    (he : e ∈ book.seen) (hdue : moment < e.2) : e ∈ (book.accept nonce moment).2.seen := by
  have hexp : e ∈ (book.expire moment).seen := mem_expire.mpr ⟨he, hdue⟩
  unfold accept
  dsimp only
  split_ifs with hform hseen
  · exact hexp
  · refine Dict.mem_set.mpr (Or.inr ⟨fun heq => hseen ?_, hexp⟩)
    exact Dict.mem_keys.mpr ⟨e.2, heq ▸ hexp⟩
  · exact he

/-- An accepted nonce was not remembered, and is remembered for `ttl` from then on. -/
theorem accept_eq_true {book : NonceBook} {nonce : Str} {moment : ℚ}
    (h : (book.accept nonce moment).1 = true) :
    (∀ until_, (nonce, until_) ∈ book.seen → until_ ≤ moment) ∧
      (nonce, moment + book.ttl) ∈ (book.accept nonce moment).2.seen := by
  unfold accept at h ⊢
  dsimp only at h ⊢
  split_ifs at h ⊢ with hform hseen
  refine ⟨fun u hu => ?_, Dict.mem_set.mpr (Or.inl rfl)⟩
  by_contra hlt
  exact hseen (Dict.mem_keys.mpr ⟨u, mem_expire.mpr ⟨hu, not_le.mp hlt⟩⟩)

end NonceBook

end ComputePool.Agent
