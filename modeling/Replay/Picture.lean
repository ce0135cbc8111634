import Replay.Bitmap
import Replay.Fits
import Replay.Flic
import Replay.Gif
import Replay.Icon
import Replay.Iptc
import Replay.Jpeg
import Replay.Jpeg2000
import Replay.LabelledImage
import Replay.Metafile
import Replay.Netpbm
import Replay.Paintbrush
import Replay.Png
import Replay.Postscript
import Replay.Psd
import Replay.Raster
import Replay.Spider
import Replay.TextPicture
import Replay.Texture
import Replay.Tiff
import Replay.Webp

namespace Replay

/-- A format of images: how it may be told, and how the size of an image is found. -/
structure PictureFormat where
  isStart : Bytes → Bool
  read : Bytes → Except ImageFault ImageSize

namespace PictureFormat

/-- A format whose images begin with one of some texts. -/
def ofStarts (starts : List Bytes) (read : Bytes → Except ImageFault ImageSize) : PictureFormat :=
  ⟨fun bytes => starts.any fun start => start.isPrefixOf bytes, read⟩

def ofStart (start : Bytes) (read : Bytes → Except ImageFault ImageSize) : PictureFormat :=
  ofStarts [start] read

/-- A format that cannot be told by the first bytes. -/
def ofContent (read : Bytes → Except ImageFault ImageSize) : PictureFormat :=
  ⟨fun _ => true, read⟩

end PictureFormat

namespace Picture

def isPng (bytes : Bytes) : Bool := Png.signature.isPrefixOf bytes

/-- Data of a known format, of which no size can be found. -/
def readUnsized (_ : Bytes) : Except ImageFault ImageSize := .error .notPng

/-- The start of a table in binary, of which the last byte is the edition. -/
def isTableStart (bytes : Bytes) : Bool :=
  (Bytes.ofLatin "GRIB").isPrefixOf bytes && bytes[7]? = some 1

/-- The start of a store of arrays. -/
def storeStart : Bytes := [0x89, 0x48, 0x44, 0x46, 0x0D, 0x0A, 0x1A, 0x0A]

/-- The formats that are tried first. -/
def commonFormats : List PictureFormat := [
  ⟨Bitmap.isFileStart, Bitmap.readFile⟩, ⟨Bitmap.isStart, Bitmap.readSize⟩,
  ⟨Gif.isStart, Gif.read⟩, ⟨Jpeg.isStart, Jpeg.read⟩, ⟨Netpbm.isStart, Netpbm.read⟩
]

/-- The formats that are tried later. -/
def rareFormats : List PictureFormat := [
  .ofStarts BlpTexture.starts BlpTexture.read,
  .ofStarts [Bytes.ofLatin "BUFR", Bytes.ofLatin "ZCZC"] readUnsized,
  .ofStart Cursor.start Cursor.read,
  ⟨PcxImage.isStart, PcxImage.read⟩,
  .ofStart DcxFile.start DcxFile.read,
  .ofStart DdsTexture.start DdsTexture.read,
  .ofStarts [Postscript.textStart, Postscript.binaryStart] Postscript.read,
  .ofStart Fits.start Fits.read,
  ⟨Flic.isStart, Flic.read⟩,
  .ofStart FtexTexture.start FtexTexture.read,
  ⟨GbrBrush.isStart, GbrBrush.read⟩,
  ⟨isTableStart, readUnsized⟩,
  .ofStart storeStart readUnsized,
  .ofStarts [Jpeg2000.streamStart, Jpeg2000.fileStart] Jpeg2000.read,
  .ofStart (Bytes.ofLatin "icns") readUnsized,
  .ofStart Icon.start Icon.read,
  .ofContent ImImage.read,
  .ofContent ImtImage.read,
  .ofContent Iptc.read,
  .ofStart AreaImage.start AreaImage.read,
  .ofStart MpegFilm.start MpegFilm.read,
  .ofStarts Tiff.starts Tiff.read,
  .ofStarts MspImage.starts MspImage.read,
  .ofContent PcdPhotograph.read,
  .ofStart PxrImage.start PxrImage.read,
  .ofStart Psd.start Psd.read,
  .ofStart QoiImage.start QoiImage.read,
  .ofStart SgiImage.start SgiImage.read,
  .ofContent Spider.read,
  .ofStart RasImage.start RasImage.read,
  .ofContent TgaImage.read,
  ⟨Webp.isStart, Webp.read⟩,
  .ofStarts Metafile.starts Metafile.read,
  ⟨XbmImage.isStart, XbmImage.read⟩,
  .ofStart XpmImage.start XpmImage.read,
  .ofStart Thumbnail.start Thumbnail.read
]

/-- Why bytes are no PNG image, when they may be of some formats: what the first one finds that
follows its images so far. -/
def otherFault (bytes : Bytes) : List PictureFormat → ImageFault
  | [] => .notPng
  | format :: formats =>
    if format.isStart bytes then
      match format.read bytes with
      | .ok _ => .notPng
      | .error .unlike => otherFault bytes formats
      | .error e => e
    else otherFault bytes formats

/-- The size of the PNG image that the bytes hold. -/
def check (bytes : Bytes) : Except ImageFault ImageSize :=
  if isPng bytes then Png.read bytes
  else .error (otherFault bytes (commonFormats ++ rareFormats))

end Picture

end Replay
