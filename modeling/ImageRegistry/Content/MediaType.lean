import ImageRegistry.Text.Split

/-! The media types that registries know by name. -/

namespace ImageRegistry.MediaType

def octets : String := "application/octet-stream"

/-- A signed schema 1 manifest. -/
def legacyManifest : String := "application/vnd.docker.distribution.manifest.v1+prettyjws"

/-- A layer of a schema 1 manifest. -/
def legacyLayer : String := "application/vnd.docker.container.image.rootfs.diff+x-gtar"

/-- A schema 2 image manifest. -/
def dockerImage : String := "application/vnd.docker.distribution.manifest.v2+json"

def dockerList : String := "application/vnd.docker.distribution.manifest.list.v2+json"

/-- A schema 2 layer that has to be fetched from its locations. -/
def foreignLayer : String := "application/vnd.docker.image.rootfs.foreign.diff.tar.gzip"

def ociImage : String := "application/vnd.oci.image.manifest.v1+json"

def ociIndex : String := "application/vnd.oci.image.index.v1+json"

def restrictedLayer : String := "application/vnd.oci.image.layer.nondistributable.v1.tar+gzip"

/-- Whether a media type is that of an OCI layer that may not be redistributed. -/
def isRestricted (mediaType : String) : Bool :=
  mediaType == restrictedLayer || occurs ".nondistributable.".toList mediaType.toList

end ImageRegistry.MediaType
