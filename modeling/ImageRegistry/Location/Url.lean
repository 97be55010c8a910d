/-! Locations of content elsewhere. How they are read is not fixed here: a registry is given a way
to read them, and asks of what was read for the scheme and for a fragment only. -/

namespace ImageRegistry

/-- What a registry asks of a location that was read. -/
structure Url where
  /-- The scheme in lower case. -/
  scheme : String
  hasFragment : Bool
  deriving DecidableEq, Repr

/-- Whether foreign content may be fetched from a location at all: over HTTP, and as a whole. -/
def Url.isFetchable (url : Url) : Bool :=
  (url.scheme == "http" || url.scheme == "https") && !url.hasFragment

/-- A way to read locations, with the reason why a text is none. -/
structure UrlReader where
  read : String → Except String Url

end ImageRegistry
