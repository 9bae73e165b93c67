import FallingSand.Files.Path
import FallingSand.Report.Image
import FallingSand.Text.Quoted

/-!
# Image files

The extension of a file says in which format an image is written. Some formats are
only known by name, some have no colors of eight bits, and some have no room for an
image that is too wide or too high.
-/

namespace FallingSand

namespace Image

inductive Format where
  | avif | bmp | dds | farbfeld | gif | hdr | ico | jpeg | openExr | png | pnm | qoi | tga | tiff
  | webP
  deriving DecidableEq, Repr

namespace Format

def all : List Format :=
  [.avif, .bmp, .dds, .farbfeld, .gif, .hdr, .ico, .jpeg, .openExr, .png, .pnm, .qoi, .tga, .tiff,
    .webP]

def name : Format → String
  | .avif => "Avif" | .bmp => "Bmp" | .dds => "Dds" | .farbfeld => "Farbfeld" | .gif => "Gif"
  | .hdr => "Hdr" | .ico => "Ico" | .jpeg => "Jpeg" | .openExr => "OpenExr" | .png => "Png"
  | .pnm => "Pnm" | .qoi => "Qoi" | .tga => "Tga" | .tiff => "Tiff" | .webP => "WebP"

def extensions : Format → List String
  | .avif => ["avif"]
  | .bmp => ["bmp"]
  | .dds => ["dds"]
  | .farbfeld => ["ff"]
  | .gif => ["gif"]
  | .hdr => ["hdr"]
  | .ico => ["ico"]
  | .jpeg => ["jpg", "jpeg", "jfif"]
  | .openExr => ["exr"]
  | .png => ["png", "apng"]
  | .pnm => ["pbm", "pam", "ppm", "pgm", "pnm"]
  | .qoi => ["qoi"]
  | .tga => ["tga"]
  | .tiff => ["tif", "tiff"]
  | .webP => ["webp"]

/-- The format of an extension, in whatever case it is written. -/
def ofExtension? (extension : String) : Option Format :=
  all.find? (·.extensions.contains extension.toLower)

end Format

/-- Why an image cannot be written in a file. -/
inductive Fault where
  | noExtension
  | unknownExtension (extension : String)
  /-- Nothing can be written in a format. -/
  | unsupportedFormat (format : Format)
  /-- A format has no colors of eight bits. -/
  | unsupportedColor (format : Format)
  /-- An image has a side that a format has no room for. -/
  | size (format : Format) (width height : Nat)
  deriving DecidableEq, Repr

/-- The texts of a fault and of its causes. -/
def Fault.chain : Fault → List String
  | .noExtension => ["The image format could not be determined"]
  | .unknownExtension extension =>
    ["The file extension `." ++ Text.quoted extension.toList
      ++ "` was not recognized as an image format"]
  | .unsupportedFormat format => ["The image format `" ++ format.name ++ "` is not supported"]
  | .unsupportedColor format =>
    ["The encoder or decoder for " ++ format.name ++ " does not support the color type `Rgb8`"]
  | .size format width height =>
    let encoding (cause : String) :=
      ["Format error encoding " ++ format.name ++ ":\n" ++ cause, cause]
    match format with
    | .ico =>
      let (side, length) := if 256 < width then ("width", width) else ("height", height)
      [s!"The parameter is malformed: the image {side} must be `1..=256`, "
        ++ s!"instead {side} {length} was provided"]
    | .jpeg => encoding (s!"Invalid image size ({width} x {height}) to encode as JPEG: "
        ++ "width and height must be >= 1 and <= 65535")
    | .tga => encoding (if 65535 < width then s!"Invalid TGA width: {width}"
        else s!"Invalid TGA height: {height}")
    | .webP => encoding "Invalid dimensions"
    | _ => ["The Image's dimensions are either too small or too large"]

/-- The longest side of an image in a format, if there is a limit. -/
def Format.longestSide? : Format → Option Nat
  | .ico => some 256
  | .webP => some 16384
  | .gif | .jpeg | .tga => some 65535
  | _ => none

/-- The format of the file at a path. -/
def Format.ofPath (path : Files.Path) : Except Fault Format :=
  match path.extension? with
  | none => .error .noExtension
  | some extension =>
    match ofExtension? extension with
    | none => .error (.unknownExtension extension)
    | some format => .ok format

/-- Why an image cannot be written in a format, if it cannot. -/
def fault? (image : Image) (format : Format) : Option Fault :=
  match format with
  | .dds => some (.unsupportedFormat format)
  | .farbfeld | .hdr | .openExr => some (.unsupportedColor format)
  | _ =>
    if format.longestSide?.any fun limit => limit < image.width || limit < image.height then
      some (.size format image.width image.height)
    else none

end Image

end FallingSand
