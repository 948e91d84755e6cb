import FleetCache.Fault

set_option autoImplicit false

namespace FleetCache.Api

open FleetCache.Text

structure Reference where
  host : List Char
  path : List Char
  query : List Char
  deriving DecidableEq

namespace Reference

def clean (text : List Char) : List Char :=
  (text.dropWhile (fun c => c ≤ ' ')).filter (fun c => !(c == '\t' || c == '\n' || c == '\r'))

def isSchemeChar (c : Char) : Bool :=
  c.isAlphanum || c == '+' || c == '-' || c == '.'

def dropScheme (text : List Char) : List Char :=
  let scheme := text.takeWhile (· != ':')
  match text.drop scheme.length with
  | ':' :: rest =>
    if (scheme.head?.map Char.isAlpha).getD false && scheme.all isSchemeChar then rest else text
  | _ => text

def takeHost (text : List Char) : List Char × List Char :=
  match text with
  | '/' :: '/' :: rest =>
    let host := rest.takeWhile (fun c => !(c == '/' || c == '?' || c == '#'))
    (host, rest.drop host.length)
  | _ => ([], text)

def ofText (text : List Char) : Except Fault Reference :=
  let (host, rest) := takeHost (dropScheme (clean text))
  if host.contains '[' != host.contains ']' then .error (.unusable "Invalid IPv6 URL")
  else
    let (path, query) := cut '?' (cut '#' rest).1
    .ok ⟨host, path, query⟩

def nameAndPort (host : List Char) : List Char × List Char :=
  let place := ((splitAt '@' host).getLast?).getD []
  if place.contains '[' then
    let (name, rest) := cut ']' (cut '[' place).2
    (name, (cut ':' rest).2)
  else cut ':' place

/-- A host name consists of labels of up to 63 characters, of which only the last one may be empty. -/
def checkName (name : List Char) : Except Fault Unit :=
  let labels := splitAt '.' name
  if name.isEmpty then .ok ()
  else if labels.dropLast.any List.isEmpty || labels.any (fun label => 64 ≤ label.length) then
    .error .badHost
  else .ok ()

def lastPort : Nat := 65535

def checkPort (text : List Char) : Except Fault Unit :=
  if text.isEmpty then .ok ()
  else if !text.all Char.isDigit then
    .error (.unusable ("Port could not be cast to integer value as " ++ quoted (String.ofList text)))
  else if lastPort < digitsValue text then .error (.unusable "Port out of range 0-65535")
  else .ok ()

def checkHost (reference : Reference) : Except Fault Unit := do
  let (name, port) := nameAndPort reference.host
  checkName name
  checkPort port

example : (ofText " http://h:80/a?b#c".toList).toOption =
    some ⟨"h:80".toList, "/a".toList, "b".toList⟩ := by decide +kernel
example : nameAndPort "u@[::1]:7".toList = ("::1".toList, "7".toList) := by decide +kernel

end Reference

end FleetCache.Api
