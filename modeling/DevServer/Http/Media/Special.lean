set_option autoImplicit false

namespace DevServer.Http.Media

def specialTypes : List (String × String) :=
  [("chemical/x-cdx", "cdx"), ("chemical/x-cif", "cif"), ("chemical/x-cmdf", "cmdf"),
   ("chemical/x-cml", "cml"), ("chemical/x-csml", "csml"), ("chemical/x-xyz", "xyz"),
   ("drawing/x-dwf", "dwf"), ("font/collection", "ttc"), ("font/ttf", "ttf"),
   ("font/woff2", "woff2"), ("message/disposition-notification", "disposition-notification"),
   ("message/global", "u8msg"), ("message/global-delivery-status", "u8dsn"),
   ("message/global-disposition-notification", "u8mdn"), ("message/global-headers", "u8hdr"),
   ("message/rfc822", "eml mht mhtml mime nws"), ("model/gltf+json", "gltf"),
   ("model/gltf-binary", "glb"), ("model/iges", "iges igs"), ("model/mesh", "mesh msh silo"),
   ("model/vnd.collada+xml", "dae"), ("model/vnd.gdl", "gdl"), ("model/vnd.gtw", "gtw"),
   ("model/vnd.vtu", "vtu"), ("model/vrml", "vrml"), ("model/x3d+binary", "x3db x3dbz"),
   ("model/x3d+vrml", "x3dv x3dvz"), ("model/x3d+xml", "x3d x3dz"),
   ("x-conference/x-cooltalk", "ice"), ("x-world/x-vrml", "flr wrl wrz xaf xof")]

end DevServer.Http.Media
