import DevServer.App.Route
import DevServer.Config.Settings
import DevServer.Http.Files
import DevServer.LiveUpdate.Script
import DevServer.Plugin.Builtin
import DevServer.Server.Basic

set_option autoImplicit false

namespace DevServer

structure App where
  entry : Text
  livePort : Port
  server : Server
  cache : Package.Cache

namespace App

open Http

def emptyCache (config : Config) : Package.Cache :=
  if config.keepResolutions then .memory [] else .off

def new (tree : FileTree) (process : Env.Definitions) (root : Path) (config : Config) (mode : Text)
    (livePort : Port) : Except SetupError App := do
  let client := Env.Client.load tree process root mode
  let plugins ← Plugin.ofNames client config.define config.plugins
  return ⟨config.entry, livePort, ⟨root, plugins, Toolchain.passthrough⟩, emptyCache config⟩

def noPage (root : Path) : Text :=
  "index.html not found in " ++ root ++
    " (checked index.html, public/, static/, app/ and subdirectories)"

def page (app : App) (tree : FileTree) : Response :=
  match Page.find? tree app.server.root with
  | none => Response.plain .notFound (noPage app.server.root)
  | some path =>
    match tree.readText path with
    | .error _ => Response.plain .notFound ("Failed to read " ++ path)
    | .ok page =>
      let injected := Page.inject page app.entry
      match (app.server.plugins.run .transformPage injected path).outcome with
      | .ok transformed => Response.page transformed
      | .error _ => Response.page injected

def module (failure : ServeError → Text) : Except ServeError ServedModule → Response
  | .ok served => Response.javascript served.code
  | .error error =>
    Response.plain (if error.isNotFound then .notFound else .serverError) (failure error)

def notText : Text := "Invalid URL: Invalid UTF-8 in \x60specifier\x60"

def dependency (app : App) (tree : FileTree) (tail : Text) : Response × App :=
  match Percent.decodeText? tail with
  | none => (Response.plain .badRequest notText, app)
  | some decoded =>
    let specifier : Text := decoded.dropWhile (· == '/')
    let (answer, cache) := app.server.dependency tree specifier app.cache
    (module (fun error => "Module not found: " ++ specifier ++ "\n" ++ error.message) answer,
      { app with cache := cache })

def source (app : App) (tree : FileTree) (path : Text) : Response :=
  module (fun _ => "File not found: " ++ path) (app.server.source tree path).answer

def publicFile (app : App) (tree : FileTree) (request : Request) : Response :=
  Files.respond tree (app.server.root.join publicDir) request

def answer (app : App) (tree : FileTree) (request : Request) : Response × App :=
  match Route.ofPath request.target.path with
  | .page => ((app.page tree).forRead request.method, app)
  | .refreshShim =>
    ((Response.javascript LiveUpdate.refreshShim).forRead request.method, app)
  | .liveUpdate =>
    ((Response.javascript (LiveUpdate.clientScript app.livePort)).forRead request.method, app)
  | .dependency tail => app.dependency tree tail
  | .source => (app.source tree request.target.path, app)
  | .publicFile => (app.publicFile tree request, app)

def respond (app : App) (tree : FileTree) (request : Request) : Response × App :=
  let (response, app) :=
    match request.method with
    | .options => (Response.bare .ok, app)
    | _ => app.answer tree request
  (response.forEveryOrigin, app)

end App
end DevServer
