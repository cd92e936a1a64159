import ComputePool.Validator.Session.Runner

/-!
# Volumes

The coroutines of `validator/storage/volumes.py` that create, list, remove and mount the volumes of
jobs. `printable` is `str.isprintable` of a character, which the texts of some errors depend on.
-/

namespace ComputePool.Validator.Volumes

open Text Numeral

variable {σ : Type}

section

variable (printable : Char → Bool)

/-- The sizes that `create_command` and `create_timeout` cannot round up. -/
def checkSize : PyFloat → Raising σ Unit
  | .fin _ | .inf true => pure ()
  | .inf false => throw .overflow
  | .nan => throw .value

/-- `volumes.create`. -/
def create (volume : VolumeSpec) : Raising σ (Bool × Str) :=
  match volume.problems printable with
  | problem :: _ => pure (false, problem)
  | [] => do
    checkSize volume.sizeGb
    let result ← Raising.send (.createVolume volume)
    return if result.ok then (true, []) else (false, result.complaint 300)

/-- `volumes.destroy`. -/
def destroy (name : Str) : Task σ (Bool × Str) :=
  if !validVolume name then
    pure (false, "refusing to remove ".toList ++ pyRepr printable name ++
      ": not an ephemeral volume name".toList)
  else do
    let result ← Program.send (.removeVolume name)
    return if result.ok || contains (lower result.stderr) "no such volume".toList then (true, [])
      else (false, result.complaint 300)

end

/-- The volume names in the answer to `docker volume ls`. -/
def oursIn (stdout : Str) : List Str :=
  ((splitLines stdout).map strip).filter validVolume

/-- `list_ours`. -/
def listOurs : Task σ (List Str) := do
  let result ← Program.send .listVolumes
  return if result.ok then oursIn result.stdout else []

/-- The volume names in the answer to `docker ps -a`. -/
def mountedIn (stdout : Str) : List Str :=
  ((splitLines stdout).flatMap fun line => (line.splitOn ',').map strip).filter
    (startsWith · volumePrefix)

/-- `mounted_volumes`. -/
def mountedVolumes : Task σ (Option (List Str)) := do
  let result ← Program.send .listMounts
  return if result.ok then some (mountedIn result.stdout) else none

/-! ## Encrypted volumes -/

/-- `require` and `require_path`. -/
def requireNames (volume : VolumeSpec) : Raising σ Unit :=
  if validVolume volume.name && validMountPath volume.mountPath then pure () else throw .value

/-- A line of `/proc/mounts` that shows the encrypted mount at `path`. -/
def showsMount (path line : Str) : Bool :=
  match split line with
  | _ :: target :: type :: _ => target = path && type = "fuse.gocryptfs".toList
  | _ => false

/-- `verify_mount`. -/
def verifyMount (container path : Str) : Task σ Bool := do
  let result ← Program.send (.readMounts container)
  return result.ok && (splitLines result.stdout).any (showsMount path)

/-- `setup_encrypted`. -/
def setupEncrypted (container : Str) (volume : VolumeSpec) (fresh : Bool) :
    Raising σ (Bool × Str) := do
  requireNames volume
  let written ← Raising.send (.writeMountScript container volume fresh)
  if !written.ok then
    return (false, "could not deliver the mount script: ".toList ++ written.complaint 200)
  let ran ← Raising.send (.runMountScript container)
  if !ran.ok then
    if ran.exitCode = 4 then
      return (false,
        "gocryptfs.conf is missing: the volume data is gone, refusing to re-initialise".toList)
    return (false, "gocryptfs mount failed: ".toList ++ ran.complaint 300)
  let mounted ← Raising.await (verifyMount container volume.mountPath)
  return if mounted then (true, [])
    else (false, "the encrypted mount is not present in /proc/mounts".toList)

/-- The pattern of a user in `grant_workspace`. -/
def userPattern : Str → Bool :=
  matchesToEnd (word (fun c => isNameChar c || c = ':') (fun c => isNameChar c || c = ':') 63)

/-- `grant_workspace`. -/
def grantWorkspace (container path user : Str) : Raising σ Bool :=
  if !userPattern user then pure false
  else if !validMountPath path then throw .value
  else do
    let result ← Raising.send (.chown container user path)
    return result.ok

end ComputePool.Validator.Volumes
