import BasRelief.Image.Library

/-!
# Image files

Loading an image from a disk. Whether it is there is looked up first; the library opens and decodes
it.
-/

namespace BasRelief

/-- Why there is no image (`ImageLoadError`). -/
inductive ImageError where
  | notFound (path : String)
  | undecodable (path reason : String)
  deriving DecidableEq, Repr

namespace ImageError

def message : ImageError → String
  | notFound path => "Image not found: " ++ path
  | undecodable path reason => "Failed to decode image " ++ path ++ ": " ++ reason

end ImageError

/-- The image in the file at a path (`load_image`). -/
def Image.load (lib : ImageLibrary) (d : Disk) (path : String) : Except ImageError Image :=
  if d.exists? path then (lib.decode path (d.content path)).mapError (.undecodable path)
  else .error (.notFound path)

end BasRelief
