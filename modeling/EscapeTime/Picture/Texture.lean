import EscapeTime.Files.System
import EscapeTime.Picture.Png

/-!
# Texture files

Lookup textures are read from image files, which are told apart by their first bytes. Of JPEG files
only the size is read, so that an empty texture is found to be one.
-/

namespace EscapeTime

open Files

/-- Why a file is no image. -/
inductive ImageFileError where
  | unknownFormat
  | png (e : Png.PngError)
  | jpeg
  deriving DecidableEq, Repr

def ImageFileError.message : ImageFileError → String
  | unknownFormat => "image: unknown format"
  | png e => e.message
  | jpeg => "unsupported JPEG feature"

/-- The width and height in a JPEG file, from the first of at most `fuel` segments that states
them. -/
def frameSize? : (fuel : Nat) → List UInt8 → Option (Nat × Nat)
  | fuel + 1, 0xff :: kind :: hi :: lo :: bytes =>
    if 0xc0 ≤ kind ∧ kind ≤ 0xc2 then
      some (Png.number ((bytes.drop 3).take 2), Png.number ((bytes.drop 1).take 2))
    else frameSize? fuel (bytes.drop (hi.toNat * 256 + lo.toNat - 2))
  | _, _ => none

/-- The image in the bytes of a file. -/
def readImage (bytes : List UInt8) : Except ImageFileError Image :=
  if bytes.take 8 = Png.signature then (Png.decode bytes).mapError .png
  else if bytes.take 2 = [0xff, 0xd8] then
    match frameSize? bytes.length (bytes.drop 2) with
    | some (0, 0) => .ok (.ofRows ⟨0, 0, 0, 0⟩ [])
    | _ => .error .jpeg
  else .error .unknownFormat

/-- Why a texture is not read. -/
inductive TextureError where
  | file (e : FileError)
  | image (path : String) (e : ImageFileError)
  deriving DecidableEq, Repr

def TextureError.message : TextureError → String
  | file e => e.message
  | image path e => "decoding LUT " ++ path ++ ": " ++ e.message

/-- The texture in the bytes of a file. What opens and cannot be read is no image. -/
def readTexture (path : String) : Except FileError (List UInt8) → Except TextureError Image
  | .ok bytes => (readImage bytes).mapError (.image path)
  | .error e =>
    match e.action with
    | .readFile _ => .error (.image path .unknownFormat)
    | _ => .error (.file e)

/-- The texture in the file at a path. -/
def loadTexture {m : Type → Type} [Monad m] [FileSystem m] (path : String) :
    m (Except TextureError Image) := do
  return readTexture path (← FileSystem.read path)

end EscapeTime
