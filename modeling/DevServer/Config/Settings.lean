import DevServer.Config.Basic

set_option autoImplicit false

namespace DevServer

structure Flags where
  host : Option Text
  port : Option Port
  livePort : Option Port
deriving DecidableEq, Repr

structure Settings where
  host : Text
  port : Port
  livePort : Port
deriving DecidableEq, Repr

namespace Settings

def resolve (flags : Flags) (config : Config) : Settings where
  host := flags.host.getD config.server.host
  port := flags.port.getD config.server.port
  livePort := flags.livePort.getD config.livePort

def loopback : Text := "127.0.0.1"

def bindHost (settings : Settings) : Text :=
  if settings.host = defaultHost then loopback else settings.host

end Settings
end DevServer
