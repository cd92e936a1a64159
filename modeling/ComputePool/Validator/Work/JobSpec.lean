import ComputePool.Foundations.Dict
import ComputePool.Foundations.Numeral
import ComputePool.Protocol.Session
import ComputePool.Validator.Roster

/-!
# Job specifications

`JobSpec` of `validator/work/containers.py` and `VolumeSpec` of `validator/storage/volumes.py`, with
their checks. The expressions end in `$`, so each of them also accepts one newline after what it
describes.
-/

namespace ComputePool.Validator

open Text Numeral Protocol

/-! ## Character classes -/

/-- `[A-Za-z]`. -/
def isLetter (c : Char) : Bool :=
  ('A' ≤ c && c ≤ 'Z') || ('a' ≤ c && c ≤ 'z')

/-- `[0-9]`. -/
def isDigit (c : Char) : Bool :=
  '0' ≤ c && c ≤ '9'

/-- `[A-Za-z0-9]`. -/
def isAlnum (c : Char) : Bool :=
  isLetter c || isDigit c

/-- `[A-Za-z0-9_.-]`. -/
def isNameChar (c : Char) : Bool :=
  isAlnum c || c ∈ ['_', '.', '-']

/-- One character of the class `first`, then at most `more` of the class `rest`. -/
def word (first rest : Char → Bool) (more : ℕ) : Str → Bool
  | [] => false
  | c :: cs => first c && cs.length ≤ more && cs.all rest

/-- `JOB_ID`. -/
def jobIdPattern : Str → Bool :=
  matchesToEnd (word isAlnum isNameChar 60)

/-- `ENV_KEY`. -/
def envKeyPattern : Str → Bool :=
  matchesToEnd (word (fun c => isLetter c || c = '_') (fun c => isAlnum c || c = '_') 63)

/-- `well_formed_digest`. -/
def wellFormedDigest : Str → Bool :=
  matchesToEnd fun s => "sha256:".toList.isPrefixOf s && hex64 (s.drop 7)

/-- `IMAGE_REF`. -/
def imageRefPattern : Str → Bool :=
  matchesToEnd fun s =>
    let name := s.takeWhile (· ≠ '@')
    let lower (c : Char) : Bool := ('a' ≤ c && c ≤ 'z') || isDigit c
    word lower (fun c => lower c || c ∈ ['.', '_', '/', '-']) 200 name &&
      "@sha256:".toList.isPrefixOf (s.drop name.length) && hex64 (s.drop (name.length + 8))

/-- The pattern of a GPU uuid. -/
def gpuUuidPattern : Str → Bool :=
  matchesToEnd fun s =>
    "GPU-".toList.isPrefixOf s && s.length = 40 && (s.drop 4).all fun c => isHex c || c = '-'

/-- The pattern of a size of shared memory. -/
def shmSizePattern : Str → Bool :=
  matchesToEnd fun s =>
    let digits := s.takeWhile isDigit
    digits ≠ [] && (s.drop digits.length = [] ||
      ['k', 'm', 'g', 'K', 'M', 'G'].any fun unit => s.drop digits.length = [unit])

/-! ## Volumes -/

/-- `PREFIX`. -/
def volumePrefix : Str := "mt-vol-".toList

/-- `CIPHER_PATH`. -/
def cipherPath : Str := "/mnt/mt-cipher".toList

/-- `volumes.valid`. -/
def validVolume : Str → Bool :=
  matchesToEnd fun s => volumePrefix.isPrefixOf s && word isAlnum isNameChar 60 (s.drop 7)

/-- `MOUNT_PATH` without `..`. -/
def validMountPath (path : Str) : Bool :=
  matchesToEnd (fun s =>
    match s with
    | '/' :: rest => rest ≠ [] && rest.length ≤ 200 &&
        rest.all fun c => isAlnum c || c ∈ ['_', '.', '/', '-']
    | _ => false) path && !contains path "..".toList

/-- `VolumeSpec`. -/
structure VolumeSpec where
  name : Str
  mountPath : Str
  sizeGb : PyFloat := .fin 0
  driver : Str := []
  sparse : Bool := false
  encrypted : Bool := false
  create : Bool := true
  deriving DecidableEq, Repr

/-- `VolumeSpec.problems`. -/
def VolumeSpec.problems (printable : Char → Bool) (volume : VolumeSpec) : List Str :=
  (if validVolume volume.name then []
    else ["volume name ".toList ++ pyRepr printable volume.name ++ " is not accepted".toList]) ++
  (if validMountPath volume.mountPath then []
    else ["mount path ".toList ++ pyRepr printable volume.mountPath ++
      " is not accepted".toList]) ++
  (if volume.encrypted && volume.mountPath = cipherPath then
    ["an encrypted volume cannot mount at the ciphertext path".toList]
    else [])

/-! ## Jobs -/

/-- `PortMapping`. -/
structure PortMapping where
  host : ℤ
  container : ℤ
  protocol : Str := "tcp".toList
  deriving DecidableEq, Repr

/-- `JobSpec`. -/
structure JobSpec where
  jobId : Str
  kind : Str
  image : Str
  gpuUuids : List Str := []
  owner : Str := []
  memoryGb : PyFloat := .fin 0
  cpus : PyFloat := .fin 0
  storageGb : PyFloat := .fin 0
  shmSize : Str := "1g".toList
  ports : List PortMapping := []
  containerPorts : List ℤ := []
  portRange : Str := []
  env : Dict Str Str := []
  command : Str := []
  entrypoint : Str := []
  volumes : List VolumeSpec := []
  wholeNode : Bool := false
  devices : List Str := []
  isolation : Bool := false
  powerCaps : Dict Str PyFloat := []
  quotasSupported : Bool := false
  workspaceUser : Str := []
  deriving DecidableEq, Repr

/-- `NAME_PREFIX`. -/
def namePrefix : Str := "mt-".toList

/-- `JobSpec.container_name`. -/
def JobSpec.containerName (spec : JobSpec) : Str :=
  namePrefix ++ spec.jobId

/-- `MAX_GPUS`. -/
def maxGpus : ℕ := 14

/-- `image_problems`. -/
def imageProblems (printable : Char → Bool) (image : Str) (allowlist : List Str) : List Str :=
  -- `image.rsplit("@", 1)[-1]`
  let digest := (image.reverse.takeWhile (· ≠ '@')).reverse
  if !imageRefPattern image || !wellFormedDigest digest then
    ["image ".toList ++ pyRepr printable image ++ " must be pinned by sha256 digest".toList]
  else if image ∉ allowlist then
    ["image ".toList ++ image ++ " is not on the allowlist".toList]
  else []

/-- `JobSpec.problems`. -/
def JobSpec.problems (printable : Char → Bool) (spec : JobSpec) (allowlist : List Str) :
    List Str :=
  (if jobIdPattern spec.jobId then []
    else ["job id ".toList ++ pyRepr printable spec.jobId ++ " is not accepted".toList]) ++
  (if priority.any (·.value = spec.kind) then []
    else ["unknown work kind ".toList ++ pyRepr printable spec.kind]) ++
  imageProblems printable spec.image allowlist ++
  (if spec.gpuUuids = [] then ["no GPU assigned".toList] else []) ++
  (if spec.gpuUuids.length > maxGpus then
    ["more than ".toList ++ natText maxGpus ++ " GPUs assigned".toList] else []) ++
  (if spec.gpuUuids.all gpuUuidPattern then [] else ["a GPU uuid is malformed".toList]) ++
  (if spec.kind = WorkKind.rental.value && !spec.isolation then
    ["rental requires the isolation runtime".toList] else []) ++
  (spec.env.keys.filter (!envKeyPattern ·)).map (fun key =>
    "environment key ".toList ++ pyRepr printable key ++ " is not accepted".toList) ++
  (if shmSizePattern spec.shmSize then []
    else ["shm size ".toList ++ pyRepr printable spec.shmSize ++ " is not accepted".toList]) ++
  spec.volumes.flatMap (VolumeSpec.problems printable) ++
  (if spec.storageGb.positive && !spec.quotasSupported then
    ["storage quota requested on a host whose driver cannot enforce it".toList] else [])

/-- A job on one card, without volumes. -/
def sampleJob : JobSpec where
  jobId := "j1".toList
  kind := WorkKind.inference.value
  image := "a@sha256:".toList ++ List.replicate 64 '0'
  gpuUuids := ["GPU-".toList ++ List.replicate 36 '0']

/-- It is accepted. -/
example : sampleJob.problems (fun _ => true) [sampleJob.image] = [] := by decide +kernel

end ComputePool.Validator
