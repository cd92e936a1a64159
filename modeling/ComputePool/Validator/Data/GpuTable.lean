import ComputePool.Foundations.Json
import ComputePool.Validator.Roster

/-!
# The table of accepted cards

`validator/data/gpu_table.py`: the memory each accepted card may have, and the window around it that
a reading has to lie in. None of the products with the two ratios is near a half, so the bounds of a
window are those of exact arithmetic.
-/

namespace ComputePool.Validator.GpuTable

open Text Numeral

/-- `GPU_VRAM_MB`. -/
def gpuVramMb : Dict Str (List ℕ) :=
  [("NVIDIA B300 SXM6 AC", [294912]), ("NVIDIA B200", [196608]), ("NVIDIA H200", [144384]),
    ("NVIDIA H200 NVL", [144384]), ("NVIDIA H100 80GB HBM3", [81920]), ("NVIDIA H100 NVL", [96256]),
    ("NVIDIA H100 PCIe", [81920]), ("NVIDIA H800 80GB HBM3", [81920]), ("NVIDIA H800 NVL", [96256]),
    ("NVIDIA H800 PCIe", [81920]), ("NVIDIA A100 80GB PCIe", [81920]),
    ("NVIDIA A100-SXM4-80GB", [81920]), ("NVIDIA A100-SXM4-40GB", [40960]),
    ("NVIDIA A100-PCIE-40GB", [40960]), ("NVIDIA A800 80GB PCIe", [81920]),
    ("NVIDIA RTX PRO 6000 Blackwell Server Edition", [98304]),
    ("NVIDIA RTX PRO 6000 Blackwell Workstation Edition", [98304]),
    ("NVIDIA RTX PRO 6000D Blackwell Workstation Edition", [86016]), ("NVIDIA RTX 6000D", [86016]),
    ("NVIDIA RTX PRO 5000 Blackwell", [49152, 73728]), ("NVIDIA RTX PRO 4500 Blackwell", [32768]),
    ("NVIDIA RTX PRO 4500 Blackwell Server Edition", [32768]),
    ("NVIDIA RTX PRO 4000 Blackwell", [24576]), ("NVIDIA RTX PRO 2000 Blackwell", [16384]),
    ("NVIDIA GeForce RTX 5090", [32768]), ("NVIDIA GeForce RTX 5080", [16384]),
    ("NVIDIA GeForce RTX 5070 Ti", [16384]), ("NVIDIA GeForce RTX 5070", [12288]),
    ("NVIDIA GeForce RTX 5060 Ti", [8192, 16384]), ("NVIDIA GeForce RTX 5060", [8192]),
    ("NVIDIA GeForce RTX 4090", [24576]), ("NVIDIA GeForce RTX 4090 D", [24576]),
    ("NVIDIA GeForce RTX 4080 SUPER", [16384]), ("NVIDIA GeForce RTX 4080", [16384]),
    ("NVIDIA GeForce RTX 4070 Ti SUPER", [16384]), ("NVIDIA GeForce RTX 4070 Ti", [12288]),
    ("NVIDIA GeForce RTX 4070 SUPER", [12288]), ("NVIDIA GeForce RTX 4070", [12288]),
    ("NVIDIA GeForce RTX 4060 Ti", [8192, 16384]), ("NVIDIA GeForce RTX 4060", [8192]),
    ("NVIDIA RTX 6000 Ada Generation", [49152]), ("NVIDIA RTX 5880 Ada Generation", [49152]),
    ("NVIDIA RTX 5000 Ada Generation", [32768]), ("NVIDIA RTX 4500 Ada Generation", [24576]),
    ("NVIDIA RTX 4000 Ada Generation", [20480]), ("NVIDIA L40S", [49152]), ("NVIDIA L40", [49152]),
    ("NVIDIA L4", [24576]), ("NVIDIA A10 Tensor Core GPU", [24576]), ("NVIDIA A40", [49152]),
    ("NVIDIA RTX A6000", [49152]), ("NVIDIA RTX A5000", [24576]), ("NVIDIA RTX A4500", [20480]),
    ("NVIDIA RTX A4000", [16384]), ("NVIDIA RTX A2000", [6144, 12288]),
    ("NVIDIA T4 Tensor Core GPU", [16384]), ("NVIDIA Tesla V100 Tensor Core GPU", [16384, 32768]),
    ("NVIDIA Quadro RTX 8000", [49152]), ("NVIDIA Quadro RTX 6000", [24576]),
    ("NVIDIA Quadro RTX 5000", [16384]), ("NVIDIA TITAN V", [12288]), ("NVIDIA TITAN RTX", [24576]),
    ("NVIDIA GeForce RTX 3090 Ti", [24576]), ("NVIDIA GeForce RTX 3090", [24576]),
    ("NVIDIA GeForce RTX 3080 Ti", [12288]), ("NVIDIA GeForce RTX 3080", [10240, 12288]),
    ("NVIDIA GeForce RTX 3070 Ti", [8192]), ("NVIDIA GeForce RTX 3070", [8192]),
    ("NVIDIA GeForce RTX 3060 Ti", [8192]), ("NVIDIA GeForce RTX 3060", [8192, 12288]),
    ("NVIDIA GeForce RTX 3050", [6144, 8192]), ("NVIDIA GeForce RTX 2080 Ti", [11264]),
    ("NVIDIA GeForce RTX 2080 SUPER", [8192]), ("NVIDIA GeForce RTX 2070 SUPER", [8192]),
    ("NVIDIA GeForce RTX 2060 SUPER", [8192]), ("NVIDIA GeForce RTX 2060", [6144, 12288]),
    ("NVIDIA GeForce GTX 1660 Ti", [6144]), ("NVIDIA GeForce GTX 1660 SUPER", [6144]),
    ("NVIDIA GeForce GTX 1660", [6144]), ("NVIDIA GeForce GTX 1080 Ti", [11264]),
    ("NVIDIA GeForce GTX 1080", [8192]), ("NVIDIA GeForce GTX 1070 Ti", [8192]),
    ("NVIDIA GeForce GTX 1070", [8192]), ("NVIDIA GeForce GTX 1060", [3072, 6144]),
    ("NVIDIA Tesla P100", [12288, 16384]), ("NVIDIA Tesla P40", [24576]),
    ("NVIDIA Tesla M40", [12288, 24576]), ("NVIDIA Quadro P4000", [8192]),
    ("NVIDIA TITAN Xp", [12288])].map fun e => (e.1.toList, e.2)

/-- `Window`. -/
structure Window where
  nominalMb : ℕ
  floorMb : ℤ
  ceilMb : ℤ
  deriving DecidableEq, Repr

/-- `Window.contains`. -/
def Window.holds (w : Window) (totalMb : PyFloat) : Bool :=
  (PyFloat.fin w.floorMb).le totalMb && totalMb.le (.fin w.ceilMb)

/-- `window_for`, with `VRAM_FLOOR_RATIO` and `VRAM_CEIL_RATIO`. -/
def windowFor (nominalMb : ℕ) : Window where
  nominalMb := nominalMb
  floorMb := PyFloat.roundEven (nominalMb * (9 / 10))
  ceilMb := PyFloat.roundEven (nominalMb * (21 / 20))

/-- `windows_for`. -/
def windowsFor (name : Str) : Option (List Window) :=
  (gpuVramMb.get? (normalizeModel name)).map (·.map windowFor)

/-- `tier_for_memory_gb`. -/
def tierForMemoryGb (nominalGb : ℚ) : Option Tier :=
  if 80 ≤ nominalGb then some .flagship
  else if 32 ≤ nominalGb then some .professional
  else if 20 ≤ nominalGb then some .standard
  else if 8 ≤ nominalGb then some .entry
  else none

/-- `Match`. -/
structure Match where
  canonical : Str
  window : Window
  tier : Option Tier
  deriving DecidableEq, Repr

/-- `match`. -/
def matchCard (name : Str) (totalMb : PyFloat) : Option Match := do
  let canonical := normalizeModel name
  let windows ← windowsFor canonical
  let window ← windows.find? (·.holds totalMb)
  return { canonical, window, tier := tierForMemoryGb (window.nominalMb / 1024) }

/-- `mismatch_reason`. -/
def mismatchReason (name : Str) (totalMb : PyFloat) : Str :=
  let canonical := normalizeModel name
  match windowsFor canonical with
  | none =>
    (if canonical ≠ [] then canonical else "unnamed GPU".toList) ++
      " is not on the accepted list".toList
  | some windows =>
    let span (w : Window) : Str :=
      Json.intText w.floorMb ++ '-' :: Json.intText w.ceilMb ++ " MB".toList
    canonical ++ " reports ".toList ++ totalMb.wholeText ++
      " MB, outside every accepted window (".toList ++
      ", ".toList.intercalate (windows.map span) ++ [')']

example : matchCard "Tesla T4".toList (.fin 15360) = some {
    canonical := "NVIDIA T4 Tensor Core GPU".toList
    window := ⟨16384, 14746, 17203⟩
    tier := some .entry } := by decide +kernel

end ComputePool.Validator.GpuTable
