import GuestBridge.Error

/-!
# Image resources

`isImageUrl` tells the addresses that can be fetched by the extension of their path;
`DecodedImage` is what a load yields, and `FetchRequest` the record of a fetch that was accepted.
-/

set_option autoImplicit false

namespace GuestBridge

/-- The extensions of images, without their dot. -/
def imageExtensions : List String := ["png", "jpg", "jpeg", "gif", "webp", "bmp"]

namespace Url

/-- The part before any query or fragment. -/
def path (url : List Char) : List Char := url.takeWhile fun c => c != '?' && c != '#'

/-- What follows the last `mark`, if there is one. -/
def afterLast? (mark : Char) (cs : List Char) : Option (List Char) :=
  if mark ∈ cs then some (cs.reverse.takeWhile (· != mark)).reverse else none

/-- The last segment of a path. -/
def file (path : List Char) : List Char := (afterLast? '/' path).getD path

/-- What follows the last dot of the last segment. -/
def extension? (url : List Char) : Option (List Char) := afterLast? '.' (file (path url))

end Url

/-- Whether the extension is one of an image, in upper or lower case. -/
def isImageExtension (ext : List Char) : Bool :=
  imageExtensions.any fun known => known.toList = ext.map Char.toLower

def isImageUrl (url : String) : Bool :=
  match Url.extension? url.toList with
  | some ext => isImageExtension ext
  | none => false

/-- The pixels of an image, row by row, four bytes each. -/
structure DecodedImage where
  width : UInt32
  height : UInt32
  pixels : List UInt8
  deriving DecidableEq, Repr

/-- A fetch that was accepted. -/
structure FetchRequest where
  token : UInt32
  url : String
  cancelled : Bool := false
  deriving DecidableEq, Repr

/-- A fetch that was just accepted, with its place among all that ever were. -/
structure Accepted where
  id : Nat
  request : FetchRequest
  deriving DecidableEq, Repr

/-- The pixels of a test image: the remainders by 251 of the bytes' places. -/
def testPixels (width height : UInt32) : List UInt8 :=
  (List.range (width * height * 4).toNat).map fun i => UInt8.ofNat (i % 251)

end GuestBridge
