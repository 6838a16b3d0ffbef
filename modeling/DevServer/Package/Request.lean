import DevServer.Text.Basic

set_option autoImplicit false

namespace DevServer.Package

structure Request where
  package : Text
  subpath : Text
deriving DecidableEq, Repr

def nameLength (specifier : Text) : Nat := if specifier.startsWith "@" then 2 else 1

def Request.ofSpecifier (specifier : Text) : Request :=
  let parts := Text.split '/' specifier
  let n := nameLength specifier
  ⟨Text.join "/" (parts.take n), Text.join "/" (parts.drop n)⟩

def isRelative (specifier : Text) : Bool := specifier.startsWith "." || specifier.startsWith "/"

def exportKey (subpath : Text) : Text := if subpath = [] then "." else "./" ++ subpath

end DevServer.Package
