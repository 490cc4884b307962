import EscapeTime.Picture.Image

/-!
# Labels

A line of text at the bottom left of an image. Labels and font files are checked here; the outlines
of glyphs are outside this library, so that every accepted label leaves the pixels as a blank does.
-/

namespace EscapeTime

/-- Why a label is not drawn. -/
inductive LabelError where
  | emptyLabel
  | shortFont
  | fontVersion
  deriving DecidableEq, Repr

def LabelError.message : LabelError → String
  | emptyLabel => "empty label"
  | shortFont => "freetype: invalid TrueType format: TTF data is too short"
  | fontVersion => "freetype: invalid TrueType format: bad TTF version"

/-- Whether the bytes can be a font file: a header of twelve bytes that starts with its version. -/
def checkFont (bytes : List UInt8) : Except LabelError Unit :=
  if bytes.length < 12 then .error .shortFont
  else if bytes.take 4 = [0, 1, 0, 0] then .ok ()
  else .error .fontVersion

/-- The image with a label, in the built-in face unless there is a font file. -/
def addLabel (img : Image) (text : String) (font : Option (List UInt8)) :
    Except LabelError Image := do
  if text.isEmpty then throw .emptyLabel
  if let some bytes := font then checkFont bytes
  return img

end EscapeTime
