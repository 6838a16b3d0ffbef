import DevServer.Http.Percent

set_option autoImplicit false

namespace DevServer.Http

open Text

inductive Method where
  | get
  | head
  | options
  | other (name : Text)
deriving DecidableEq, Repr

namespace Method

def ofName (name : Text) : Method :=
  if name = "GET" then get
  else if name = "HEAD" then head
  else if name = "OPTIONS" then options
  else other name

def isRead : Method → Bool
  | get => true
  | head => true
  | _ => false

def sent : Method → ByteArray → ByteArray
  | head, _ => .empty
  | _, body => body

end Method

structure Target where
  origin : Text
  path : Text
  query : Option Text
deriving DecidableEq, Repr

namespace Target

def isPathEnd (c : Char) : Bool := c == '/' || c == '?' || c == '#'

def below (origin text : Text) : Target :=
  let text := text.takeWhile (· != '#')
  let (path, query) :=
    match cutAt? '?' text with
    | some (path, query) => (path, some query)
    | none => (text, none)
  ⟨origin, if path = [] then "/" else path, query⟩

def schemeText (scheme : Text) : Text :=
  let lower := scheme.map Char.toLower
  if lower = "http" ∨ lower = "https" then lower else scheme

def ofText (text : Text) : Target :=
  if text.startsWith "/" ∨ text = "*" then below [] text
  else match text.cut? "://" with
    | none => ⟨text, [], none⟩
    | some (scheme, rest) =>
      let host := rest.takeWhile fun c => !isPathEnd c
      below (schemeText scheme ++ "://" ++ host) (rest.drop host.length)

def text (target : Target) : Text :=
  target.origin ++ target.path ++
    match target.query with
    | some query => '?' :: query
    | none => []

def withSlash? (target : Target) : Option Target :=
  if target.path.startsWith "/" then some { target with path := target.path ++ ['/'] } else none

end Target

inductive Header where
  | contentType
  | cacheControl
  | location
  | allow
  | allowOrigin
deriving DecidableEq, Repr

def Header.name : Header → Text
  | contentType => "content-type"
  | cacheControl => "cache-control"
  | location => "location"
  | allow => "allow"
  | allowOrigin => "access-control-allow-origin"

structure Request where
  method : Method
  target : Target
  headers : List (Text × Text)
deriving DecidableEq, Repr

namespace Request

def header? (request : Request) (name : Text) : Option Text := request.headers.lookup name

def isVisible (c : Char) : Bool := c == '\t' || (' ' ≤ c && c ≤ '~')

def visible? (request : Request) (name : Text) : Option Text :=
  (request.header? name).filter fun value => value.all isVisible

end Request

inductive Status where
  | ok
  | partialContent
  | temporaryRedirect
  | notModified
  | badRequest
  | notFound
  | methodNotAllowed
  | preconditionFailed
  | rangeNotSatisfiable
  | serverError
deriving DecidableEq, Repr

def Status.code : Status → Nat
  | ok => 200
  | partialContent => 206
  | temporaryRedirect => 307
  | notModified => 304
  | badRequest => 400
  | notFound => 404
  | methodNotAllowed => 405
  | preconditionFailed => 412
  | rangeNotSatisfiable => 416
  | serverError => 500

structure Response where
  status : Status
  headers : List (Header × Text)
  body : ByteArray

namespace Response

def header? (response : Response) (header : Header) : Option Text := response.headers.lookup header

def bare (status : Status) : Response := ⟨status, [], .empty⟩

def plainText : Text := "text/plain; charset=utf-8"
def javascriptType : Text := "application/javascript"

def plain (status : Status) (body : Text) : Response :=
  ⟨status, [(.contentType, plainText)], Text.bytes body⟩

def page (body : Text) : Response :=
  ⟨.ok, [(.contentType, "text/html; charset=utf-8")], Text.bytes body⟩

def javascript (code : Text) : Response :=
  ⟨.ok, [(.contentType, javascriptType), (.cacheControl, "no-cache")], Text.bytes code⟩

def redirect (location : Text) : Response :=
  ⟨.temporaryRedirect, [(.location, location)], .empty⟩

def methodNotAllowed : Response := ⟨.methodNotAllowed, [(.allow, "GET,HEAD")], .empty⟩

def forEveryOrigin (response : Response) : Response :=
  { response with headers := (.allowOrigin, "*") :: response.headers }

def forRead (method : Method) (response : Response) : Response :=
  if method.isRead then { response with body := method.sent response.body } else methodNotAllowed

end Response
end DevServer.Http
