import BasRelief.Image.Filter
import BasRelief.Image.Library
import BasRelief.Image.Resample

/-!
# The standard library of images

The library that the program runs with. Of the picture formats it knows the one in which a disk
holds pictures; of the blurs and of sharpening those that the enhancements ask for.
-/

namespace BasRelief

/-! ### Decoding -/

/-- The extensions of pictures; those of moving ones are read as their first picture. -/
def pictureExtensions : List String := ["png", "apng"]

def isPicturePath (path : String) : Bool :=
  match Path.extension? path with
  | some name => pictureExtensions.contains (String.ofList (name.toList.map Char.toLower))
  | none => false

/-- The extension of the path says that the file is a picture; its content has to agree. -/
def decodePicture (path : String) : Except DiskError Content → Except String Image
  | .error e => .error e.message
  | .ok (.picture image) => if isPicturePath path then .ok image else .error "unknown format"
  | .ok (.octets _) => .error "not a picture"

/-! ### The library -/

namespace ImageLibrary

def standard : ImageLibrary where
  decode := decodePicture
  resizeColors := Resample.resizeColors
  resizePlane := Resample.resizePlane
  invert := Filter.invert
  equalize := Filter.equalize
  blur deviation := Filter.blur (if deviation == 0.5 then Filter.narrowBell else Filter.wideBell)
  sharpen _ _ := Filter.sharpen

theorem standard_resizes : standard.Resizes where
  colors _ _ _ := ⟨rfl, rfl⟩
  plane r width height :=
    ⟨Resample.width_resizePlane r width height, Resample.height_resizePlane r width height⟩

theorem standard_keepsSizes : standard.KeepsSizes where
  invert r := Raster.hasSize_map _ r
  equalize r := Raster.hasSize_map _ r
  blur _ _ := ⟨rfl, rfl⟩
  sharpen _ _ _ := ⟨rfl, rfl⟩

end ImageLibrary
end BasRelief
