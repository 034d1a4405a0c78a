import BasRelief.Disk.Files

/-!
# Image libraries

What the program takes from a library of images: decoding, resampling and filters. Everything else
is stated and proved for every library. Where the size of a result matters, it is a hypothesis that
resampling gives the requested size and that filters keep the size.
-/

namespace BasRelief

structure ImageLibrary where
  /-- The image in a file (`image::open`), from its path and from what opening the file gives; or
  the reason why there is none. -/
  decode (path : String) (opened : Except DiskError Content) : Except String Image
  /-- Colours brought to a width and a height (`imageops::resize`). -/
  resizeColors (r : Raster Rgb) (width height : Nat) : Raster Rgb
  /-- Intensities brought to a width and a height (`imageops::resize`). -/
  resizePlane (r : Raster UInt8) (width height : Nat) : Raster UInt8
  /-- The inverted intensities (`imageops::invert`). -/
  invert (r : Raster UInt8) : Raster UInt8
  /-- The histogram equalised (`equalize_histogram`). -/
  equalize (r : Raster UInt8) : Raster UInt8
  /-- A blur of some deviation (`gaussian_blur_f32`). -/
  blur (deviation : Float32) (r : Raster UInt8) : Raster UInt8
  /-- Edges sharpened against a blur, where they differ by more than a threshold
  (`imageops::unsharpen`). -/
  sharpen (deviation : Float32) (threshold : Int) (r : Raster UInt8) : Raster UInt8

namespace ImageLibrary

/-- Resampling gives the requested size. -/
structure Resizes (lib : ImageLibrary) : Prop where
  colors : ∀ r width height, (lib.resizeColors r width height).HasSize width height
  plane : ∀ r width height, (lib.resizePlane r width height).HasSize width height

/-- Filters keep the size. -/
structure KeepsSizes (lib : ImageLibrary) : Prop where
  invert : ∀ r, (lib.invert r).HasSize r.width r.height
  equalize : ∀ r, (lib.equalize r).HasSize r.width r.height
  blur : ∀ deviation r, (lib.blur deviation r).HasSize r.width r.height
  sharpen : ∀ deviation threshold r, (lib.sharpen deviation threshold r).HasSize r.width r.height

end ImageLibrary
end BasRelief
