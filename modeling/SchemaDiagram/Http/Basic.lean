import SchemaDiagram.Decimal.Text
import SchemaDiagram.Encoding.Utf8
import SchemaDiagram.Text.Blank
import SchemaDiagram.Text.Quoted
import SchemaDiagram.Text.Scan

namespace SchemaDiagram.Http

open SchemaDiagram.Text

structure Request where
  url : String
  headers : List (String × String)
  timeout : Binary64
  deriving DecidableEq, Repr

inductive Reply where
  | body (bs : Bytes)
  | status (code : Int) (reason : String)
  | unreachable (reason : String)
  | broken (reason : String)
  deriving Repr

inductive Fault where
  | status (code : Int) (reason : String)
  | unreachable (reason : String)
  | broken (reason : String)
  | unknownScheme (url : String)
  deriving DecidableEq, Repr

def Fault.message : Fault → String
  | .status code reason => "HTTP Error " ++ String.ofList (intText code) ++ ": " ++ reason
  | .unreachable reason => "<urlopen error " ++ reason ++ ">"
  | .broken reason => reason
  | .unknownScheme url => "unknown url type: " ++ String.ofList (inQuotes url.toList)

def hasScheme (cs : List Char) : Bool :=
  let scheme := cs.takeWhile fun c => c != '/' && c != ':'
  !scheme.isEmpty && (cs.drop scheme.length).head? == some ':'

def withoutAngles (cs : List Char) : List Char :=
  match cs with
  | '<' :: rest => if rest.getLast? == some '>' then trim rest.dropLast else cs
  | cs => cs

def bareUrl (s : String) : String :=
  let cs := withoutAngles (trim s.toList)
  match literal? "URL:" cs with
  | some rest => String.ofList (trim rest)
  | none => String.ofList cs

def request? (url : String) (headers : List (String × String)) (timeout : Binary64) :
    Option Request :=
  let url := bareUrl url
  if hasScheme url.toList then some { url, headers, timeout } else none

abbrev Network := Request → Reply

def get (network : Network) (url : String) (headers : List (String × String))
    (timeout : Binary64) : Except Fault Bytes :=
  match request? url headers timeout with
  | none => .error (.unknownScheme (bareUrl url))
  | some r =>
      match network r with
      | .body bs => .ok bs
      | .status code reason => .error (.status code reason)
      | .unreachable reason => .error (.unreachable reason)
      | .broken reason => .error (.broken reason)

theorem request?_url {url : String} {headers : List (String × String)} {timeout : Binary64}
    {r : Request} (h : request? url headers timeout = some r) : r.url = bareUrl url := by
  simp only [request?] at h
  split at h
  · rw [← Option.some.inj h]
  · simp at h

end SchemaDiagram.Http
