import FallingSand.Report.Image

/-!
# Images as PNG files

The plainest form of a PNG file: eight bits for each of three channels, no
filters, and the data stored as they are. Chunks carry a cyclic redundancy check
and the data an Adler checksum.
-/

namespace FallingSand.Image

/-- A number in four bytes, the highest one first. -/
def bigEndian (n : UInt32) : List UInt8 :=
  [(n >>> 24).toUInt8, (n >>> 16).toUInt8, (n >>> 8).toUInt8, n.toUInt8]

/-- A number in two bytes, the lowest one first. -/
def littleEndian (n : Nat) : List UInt8 := [UInt8.ofNat n, UInt8.ofNat (n / 256)]

/-- Eight steps of the division that a cyclic redundancy check is. -/
def crcBits : Nat → UInt32 → UInt32
  | 0, crc => crc
  | n + 1, crc =>
    crcBits n (if crc &&& 1 = 1 then (crc >>> 1) ^^^ 0xEDB88320 else crc >>> 1)

/-- The cyclic redundancy check of some bytes. -/
def crc (bytes : List UInt8) : UInt32 :=
  bytes.foldl (fun crc byte => crcBits 8 (crc ^^^ byte.toUInt32)) 0xFFFFFFFF ^^^ 0xFFFFFFFF

/-- The Adler checksum of some bytes. -/
def adler (bytes : List UInt8) : UInt32 :=
  let (a, b) := bytes.foldl (fun (a, b) byte =>
    let a := (a + byte.toNat) % 65521
    (a, (a + b) % 65521)) (1, 0)
  UInt32.ofNat (b * 65536 + a)

/-- A chunk: its length, its kind and its content, with a check of the last two. -/
def chunk (kind : String) (content : List UInt8) : List UInt8 :=
  let body := kind.toUTF8.toList ++ content
  bigEndian (UInt32.ofNat content.length) ++ body ++ bigEndian (crc body)

/-- The most bytes that a stored block holds. -/
def blockSize : Nat := 65535

/-- Bytes as stored blocks, of which there are at most `fuel + 1`. -/
def blocks : Nat → List UInt8 → List UInt8
  | 0, _ => []
  | fuel + 1, bytes =>
    let now := bytes.take blockSize
    let later := bytes.drop blockSize
    let size := littleEndian now.length ++ littleEndian (blockSize - now.length)
    if later.isEmpty then 1 :: size ++ now else 0 :: size ++ now ++ blocks fuel later

/-- Bytes as stored data with a checksum. -/
def stored (bytes : List UInt8) : List UInt8 :=
  [0x78, 0x01] ++ blocks (bytes.length / blockSize + 1) bytes ++ bigEndian (adler bytes)

/-- The rows of some pixels, each with the mark that it has no filter. -/
def scanLines (width : Nat) : Nat → List Color → List UInt8
  | 0, _ => []
  | rows + 1, pixels =>
    (0 :: (pixels.take width).flatMap fun c => [c.r, c.g, c.b])
      ++ scanLines width rows (pixels.drop width)

/-- The content of a PNG file of an image. -/
def png (image : Image) : ByteArray :=
  let start : List UInt8 := [0x89, 0x50, 0x4E, 0x47, 0x0D, 0x0A, 0x1A, 0x0A]
  let size := bigEndian (UInt32.ofNat image.width) ++ bigEndian (UInt32.ofNat image.height)
  let data := stored (scanLines image.width image.height image.pixels)
  ByteArray.mk (start ++ chunk "IHDR" (size ++ [8, 2, 0, 0, 0]) ++ chunk "IDAT" data
    ++ chunk "IEND" []).toArray

end FallingSand.Image
