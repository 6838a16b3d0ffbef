set_option autoImplicit false

namespace DevServer.Http.Media

def soundTypes : List (String × String) :=
  [("audio/aac", "aac adts"), ("audio/ac3", "ac3"), ("audio/aiff", "aif aifc aiff cdda"),
   ("audio/annodex", "axa"), ("audio/audible", "aa"), ("audio/basic", "au snd"),
   ("audio/flac", "flac"), ("audio/m4a", "m4a"), ("audio/m4b", "m4b"), ("audio/m4p", "m4p"),
   ("audio/mid", "mid midi rmi"), ("audio/midi", "kar"), ("audio/mp4", "mp4a"),
   ("audio/mpeg", "m2a m3a mp2 mp2a mp3 mpga"), ("audio/ogg", "oga ogg opus spx"),
   ("audio/s3m", "s3m"), ("audio/scpls", "pls"), ("audio/silk", "sil"),
   ("audio/vnd.audible.aax", "aax"), ("audio/vnd.dece.audio", "uva uvva"),
   ("audio/vnd.digital-winds", "eol"), ("audio/vnd.dlna.adts", "adt"), ("audio/vnd.dra", "dra"),
   ("audio/vnd.dts", "dts"), ("audio/vnd.dts.hd", "dtshd"), ("audio/vnd.lucent.voice", "lvp"),
   ("audio/vnd.ms-playready.media.pya", "pya"), ("audio/vnd.nuera.ecelp4800", "ecelp4800"),
   ("audio/vnd.nuera.ecelp7470", "ecelp7470"), ("audio/vnd.nuera.ecelp9600", "ecelp9600"),
   ("audio/vnd.rip", "rip"), ("audio/wav", "wav wave"), ("audio/webm", "weba"),
   ("audio/x-caf", "caf"), ("audio/x-gsm", "gsm"), ("audio/x-m4r", "m4r"),
   ("audio/x-matroska", "mka"), ("audio/x-mpegurl", "m3u m3u8"), ("audio/x-ms-wax", "wax"),
   ("audio/x-ms-wma", "wma"), ("audio/x-pn-realaudio", "ra ram"),
   ("audio/x-pn-realaudio-plugin", "rpm"), ("audio/x-sd2", "sd2"), ("audio/x-smd", "smd smx smz"),
   ("audio/xm", "xm")]

end DevServer.Http.Media
