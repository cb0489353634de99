import Mathlib.Data.List.Basic

/-!
# The libcamera types the program handles

Pointers to `Stream`, `FrameBuffer` and `Request` objects are compared and stored, never computed with, so an
address is a natural number.
-/

namespace Twincam

namespace Libcamera

abbrev StreamPtr := Nat

abbrev FrameBufferPtr := Nat

/-- `FrameBuffer::Plane`: a part of the dmabuf `fd`. -/
structure FrameBufferPlane where
  fd : Int
  offset : UInt32
  length : UInt32
deriving DecidableEq

/-- `libcamera::Request`: its address and its `BufferMap`, which has a buffer for every configured stream. -/
structure Request where
  addr : Nat
  buffers : List (StreamPtr × FrameBufferPtr)
  buffers_ne : buffers ≠ []
deriving DecidableEq

/-- `request->buffers().begin()->second`. -/
def Request.firstBuffer (request : Request) : FrameBufferPtr := (request.buffers.head request.buffers_ne).2

/-- `Request::Status` of a request that the camera gives back. -/
inductive RequestStatus
  | RequestComplete
  | RequestCancelled
deriving DecidableEq

structure Size where
  width : UInt32
  height : UInt32
deriving DecidableEq

structure PixelFormat where
  fourcc : UInt32
  modifier : UInt64
deriving DecidableEq

/-- `StreamConfiguration`, of which a stream has one in every `CameraConfiguration`. -/
structure StreamConfiguration where
  stream : StreamPtr
  pixelFormat : PixelFormat
  size : Size
  stride : UInt32
deriving DecidableEq

/-- The code of a pixel format, its first character in the low byte. -/
def fourcc (a b c d : Char) : UInt32 := a.val ||| b.val <<< 8 ||| c.val <<< 16 ||| d.val <<< 24

namespace formats

def ABGR8888 : PixelFormat := ⟨fourcc 'A' 'B' '2' '4', 0⟩
def XBGR8888 : PixelFormat := ⟨fourcc 'X' 'B' '2' '4', 0⟩
def ARGB8888 : PixelFormat := ⟨fourcc 'A' 'R' '2' '4', 0⟩
def XRGB8888 : PixelFormat := ⟨fourcc 'X' 'R' '2' '4', 0⟩
def BGRA8888 : PixelFormat := ⟨fourcc 'B' 'A' '2' '4', 0⟩
def BGRX8888 : PixelFormat := ⟨fourcc 'B' 'X' '2' '4', 0⟩
def RGBA8888 : PixelFormat := ⟨fourcc 'R' 'A' '2' '4', 0⟩
def RGBX8888 : PixelFormat := ⟨fourcc 'R' 'X' '2' '4', 0⟩

def NV12 : PixelFormat := ⟨fourcc 'N' 'V' '1' '2', 0⟩
def NV21 : PixelFormat := ⟨fourcc 'N' 'V' '2' '1', 0⟩
def NV16 : PixelFormat := ⟨fourcc 'N' 'V' '1' '6', 0⟩
def NV61 : PixelFormat := ⟨fourcc 'N' 'V' '6' '1', 0⟩
def NV24 : PixelFormat := ⟨fourcc 'N' 'V' '2' '4', 0⟩
def NV42 : PixelFormat := ⟨fourcc 'N' 'V' '4' '2', 0⟩
def YUV420 : PixelFormat := ⟨fourcc 'Y' 'U' '1' '2', 0⟩
def YVU420 : PixelFormat := ⟨fourcc 'Y' 'V' '1' '2', 0⟩
def YUV422 : PixelFormat := ⟨fourcc 'Y' 'U' '1' '6', 0⟩
def YVU422 : PixelFormat := ⟨fourcc 'Y' 'V' '1' '6', 0⟩
def YUV444 : PixelFormat := ⟨fourcc 'Y' 'U' '2' '4', 0⟩
def YVU444 : PixelFormat := ⟨fourcc 'Y' 'V' '2' '4', 0⟩

def YUYV : PixelFormat := ⟨fourcc 'Y' 'U' 'Y' 'V', 0⟩
def MJPEG : PixelFormat := ⟨fourcc 'M' 'J' 'P' 'G', 0⟩

end formats

end Libcamera

end Twincam
