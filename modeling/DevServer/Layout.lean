import DevServer.Text.Basic

set_option autoImplicit false

namespace DevServer

def packagesDir : Text := "node_modules"
def buildDir : Text := "dist"
def publicDir : Text := "public"
def manifestFile : Text := "package.json"
def configFile : Text := "kindle.config.json"

end DevServer
