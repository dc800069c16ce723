import JsxAudit.Text.Utf8

/-!
The media type of an image, from its first bytes.
-/

namespace JsxAudit.Generation

/-- White space among bytes. -/
def isByteBlank (b : UInt8) : Bool :=
  b == 32 || (9 ≤ b && b ≤ 13)

/-- The type that the first bytes announce; an image that says nothing counts as PNG. -/
def mediaType (image : List UInt8) : String :=
  let head := (image.take 256).dropWhile isByteBlank
  if [0xFF, 0xD8, 0xFF].isPrefixOf image then "image/jpeg"
  else if (Text.utf8 "GIF8").isPrefixOf image then "image/gif"
  else if image.take 4 = Text.utf8 "RIFF" ∧ Text.slice image 8 12 = Text.utf8 "WEBP" then
    "image/webp"
  else if (Text.utf8 "<svg").isPrefixOf head || (Text.utf8 "<?xml").isPrefixOf head then
    "image/svg+xml"
  else "image/png"

end JsxAudit.Generation
