import EscapeTime.Picture.Image

/-!
# PNG files

Images are written as PNG files without compression, with an alpha channel only where it is needed,
and such files are read back. The file format has the alpha beside the colors, not multiplied in.
-/

namespace EscapeTime.Png

/-! ### Numbers and checksums -/

/-- The last four bytes of a number, the highest first. -/
def bytes4 (n : Nat) : List UInt8 :=
  [UInt8.ofNat (n >>> 24), UInt8.ofNat (n >>> 16), UInt8.ofNat (n >>> 8), UInt8.ofNat n]

/-- The number that bytes spell, the highest first. -/
def number (bytes : List UInt8) : Nat :=
  bytes.foldl (fun n b => n * 256 + b.toNat) 0

/-- One bit of the cyclic redundancy check. -/
def crcBit (c : UInt32) : UInt32 :=
  if c &&& 1 = 1 then (0xedb88320 : UInt32) ^^^ (c >>> 1) else c >>> 1

def crcByte (c : UInt32) (b : UInt8) : UInt32 :=
  (List.range 8).foldl (fun c _ => crcBit c) (c ^^^ UInt32.ofNat b.toNat)

/-- The cyclic redundancy check of a chunk. -/
def crc (bytes : List UInt8) : UInt32 :=
  bytes.foldl crcByte 0xffffffff ^^^ 0xffffffff

/-- The checksum of compressed data. -/
def adler (bytes : List UInt8) : Nat :=
  let (a, b) := bytes.foldl (fun (a, b) x =>
    let a := (a + x.toNat) % 65521
    (a, (b + a) % 65521)) (1, 0)
  b * 65536 + a

/-! ### Colors -/

/-- A channel with the alpha taken out again. -/
def straight (a c : UInt8) : UInt8 :=
  if a = 0 then 0
  else if a = 255 then c
  else UInt8.ofNat (c.toNat * 0x101 * 0xffff / (a.toNat * 0x101) / 256)

/-- A channel with the alpha multiplied in. -/
def multiplied (a c : UInt8) : UInt8 :=
  UInt8.ofNat (c.toNat * 0x101 * a.toNat / 255 / 256)

def colorBytes (hasAlpha : Bool) (c : Rgba) : List UInt8 :=
  if hasAlpha then [straight c.a c.r, straight c.a c.g, straight c.a c.b, c.a] else [c.r, c.g, c.b]

/-- The colors of a row. -/
def rowColors (hasAlpha : Bool) : List UInt8 → List Rgba
  | r :: g :: b :: a :: rest =>
    if hasAlpha then
      ⟨multiplied a r, multiplied a g, multiplied a b, a⟩ :: rowColors hasAlpha rest
    else ⟨r, g, b, 255⟩ :: rowColors hasAlpha (a :: rest)
  | [r, g, b] => if hasAlpha then [] else [⟨r, g, b, 255⟩]
  | _ => []

/-! ### Writing -/

def signature : List UInt8 :=
  [0x89, 0x50, 0x4e, 0x47, 0x0d, 0x0a, 0x1a, 0x0a]

def nameBytes (name : String) : List UInt8 :=
  name.toUTF8.toList

def chunk (name : String) (data : List UInt8) : List UInt8 :=
  bytes4 data.length ++ nameBytes name ++ data ++ bytes4 (crc (nameBytes name ++ data)).toNat

/-- The last two bytes of a number, the lowest first. -/
def bytes2 (n : Nat) : List UInt8 :=
  [UInt8.ofNat n, UInt8.ofNat (n >>> 8)]

/-- The data in at most `blocks` further blocks that are stored as they are. -/
def storedBlocks : (blocks : Nat) → List UInt8 → List UInt8
  | 0, _ => []
  | blocks + 1, data =>
    let block := data.take 65535
    let rest := data.drop 65535
    let last : UInt8 := if rest.isEmpty then 1 else 0
    last :: bytes2 block.length ++ bytes2 (65535 - block.length) ++ block ++
      if rest.isEmpty then [] else storedBlocks blocks rest

/-- The data as a compressed stream that does not save anything. -/
def compress (data : List UInt8) : List UInt8 :=
  [0x78, 0x01] ++ storedBlocks (data.length / 65535 + 1) data ++ bytes4 (adler data)

/-- The file of an image. -/
def encode (img : Image) : List UInt8 :=
  let hasAlpha := img.pixels.any (·.a != 255)
  let header := bytes4 img.bounds.width.toNat ++ bytes4 img.bounds.height.toNat ++
    [8, if hasAlpha then 6 else 2, 0, 0, 0]
  let data := img.rows.flatMap fun row => 0 :: row.flatMap (colorBytes hasAlpha)
  signature ++ chunk "IHDR" header ++ chunk "IDAT" (compress data) ++ chunk "IEND" []

/-! ### Reading -/

/-- Why a file gives no image. -/
inductive PngError where
  | damaged
  /-- The file has a form that `encode` does not write. -/
  | unsupported
  deriving DecidableEq, Repr

def PngError.message : PngError → String
  | damaged => "png: invalid format: not enough pixel data"
  | unsupported => "png: unsupported feature"

/-- The chunks of a file, at most `fuel` of them. -/
def chunks? : (fuel : Nat) → List UInt8 → Option (List (List UInt8 × List UInt8))
  | 0, _ => none
  | _, [] => some []
  | fuel + 1, bytes =>
    let length := number (bytes.take 4)
    let name := (bytes.drop 4).take 4
    let data := (bytes.drop 8).take length
    if bytes.length < length + 12 then none
    else (chunks? fuel (bytes.drop (length + 12))).map ((name, data) :: ·)

/-- The data of at most `fuel` stored blocks. -/
def readBlocks? : (fuel : Nat) → List UInt8 → Option (List UInt8)
  | fuel + 1, kind :: lo :: hi :: _ :: _ :: bytes =>
    let length := hi.toNat * 256 + lo.toNat
    if bytes.length < length ∨ 1 < kind then none
    else if kind = 1 then some (bytes.take length)
    else (readBlocks? fuel (bytes.drop length)).map (bytes.take length ++ ·)
  | _, _ => none

/-- The rows of `size` bytes each, behind the mark of a filter that does nothing. -/
def readRows? (size : Nat) : (rows : Nat) → List UInt8 → Option (List (List UInt8))
  | 0, _ => some []
  | rows + 1, filter :: bytes =>
    if filter ≠ 0 ∨ bytes.length < size then none
    else (readRows? size rows (bytes.drop size)).map (bytes.take size :: ·)
  | _ + 1, [] => none

/-- The data of all chunks of a name. -/
def dataOf (cs : List (List UInt8 × List UInt8)) (name : String) : List UInt8 :=
  (cs.filter (·.1 == nameBytes name)).flatMap (·.2)

/-- The image of the chunks of a file. -/
def readChunks (cs : List (List UInt8 × List UInt8)) : Except PngError Image :=
  let header := dataOf cs "IHDR"
  match header.drop 8 with
  | [8, kind, 0, 0, 0] =>
    if kind ≠ 2 ∧ kind ≠ 6 then .error .unsupported
    else
      let hasAlpha := kind == 6
      let width := number (header.take 4)
      let height := number ((header.drop 4).take 4)
      let stream := (dataOf cs "IDAT").drop 2
      match readBlocks? stream.length stream with
      | none => .error .unsupported
      | some bytes =>
        match readRows? (width * if hasAlpha then 4 else 3) height bytes with
        | none => .error .unsupported
        | some rows => .ok (.ofRows ⟨0, 0, width, height⟩ (rows.map (rowColors hasAlpha)))
  | _ => .error .unsupported

/-- The image in the bytes of a file. -/
def decode (bytes : List UInt8) : Except PngError Image :=
  if bytes.take 8 ≠ signature then .error .damaged
  else
    match chunks? bytes.length (bytes.drop 8) with
    | none => .error .damaged
    | some cs => readChunks cs

end EscapeTime.Png
