import KeaDhcp.Infra.SortedMap
import KeaDhcp.Util.LexicalCast
import KeaDhcp.Util.StrUtil

/-!
# HTTP messages

`HttpMessage`, `HttpRequest` and `HttpResponse` of `src/lib/http`. What the parser collects is in
the context of a message, which is an argument here. A function that throws returns the message as it is
then.
-/

namespace Http

open Infra Util

abbrev ByteString := List UInt8

/-- `tolower` and `toupper` in the C locale. -/
def toLower (c : UInt8) : UInt8 := if 0x41 ≤ c ∧ c ≤ 0x5a then c + 0x20 else c

def toUpper (c : UInt8) : UInt8 := if 0x61 ≤ c ∧ c ≤ 0x7a then c - 0x20 else c

def lowercase (text : ByteString) : ByteString := text.map toLower

structure HttpHeaderContext where
  name : ByteString := []
  value : ByteString := []
  deriving DecidableEq

/-- `HttpRequestContext` and `HttpResponseContext`; `line` has the members they do not share. -/
structure HttpContext (κ : Type) where
  line : κ
  httpVersionMajor : Nat := 0
  httpVersionMinor : Nat := 0
  headers : List HttpHeaderContext := []
  body : ByteString := []
  deriving DecidableEq

structure RequestLine where
  method : ByteString := []
  uri : ByteString := []
  deriving DecidableEq

structure StatusLine where
  statusCode : Nat := 0
  phrase : ByteString := []
  deriving DecidableEq

abbrev HttpRequestContext := HttpContext RequestLine

abbrev HttpResponseContext := HttpContext StatusLine

/-! ## Headers -/

structure HttpHeader where
  name : ByteString
  value : ByteString
  deriving DecidableEq

namespace HttpHeader

variable (h : HttpHeader)

def getUint64Value : Option Nat := lexicalCastUint64 h.value

def getLowerCaseName : ByteString := lowercase h.name

def getLowerCaseValue : ByteString := lowercase h.value

def isValueEqual (v : ByteString) : Bool := lowercase v = h.getLowerCaseValue

end HttpHeader

/-- `HttpHeaderMap`: the headers by their names in lower case. -/
abbrev HttpHeaderMap := List (ByteString × HttpHeader)

def HttpHeaderMap.find (headers : HttpHeaderMap) (name : ByteString) : Option HttpHeader :=
  headers.lookup name

/-- The loop that copies headers from the context. -/
def copyHeaders (context : List HttpHeaderContext) (headers : HttpHeaderMap) : HttpHeaderMap :=
  context.foldl (fun headers header =>
    let hdr : HttpHeader := { name := header.name, value := header.value }
    insertEntry hdr.getLowerCaseName hdr headers) headers

structure HttpVersion where
  major : Nat
  minor : Nat
  deriving DecidableEq

inductive Direction where
  | inbound | outbound
  deriving DecidableEq

structure HttpMessage where
  direction : Direction
  requiredVersions : List HttpVersion := []
  httpVersion : HttpVersion := ⟨1, 0⟩
  requiredHeaders : HttpHeaderMap := []
  created : Bool := false
  finalized : Bool := false
  headers : HttpHeaderMap := []
  deriving DecidableEq

def inRequiredSet {α : Type} [DecidableEq α] (element : α) (elementSet : List α) : Bool :=
  elementSet.isEmpty || element ∈ elementSet

namespace HttpMessage

variable (m : HttpMessage)

def requiresBody : Bool :=
  (m.requiredHeaders.find (ascii "content-length")).isSome

def getHeader (headerName : ByteString) : Option HttpHeader :=
  if m.created then m.headers.find (lowercase headerName) else none

/-- `getHeaderValueAsUint64`, with `none` for its exceptions. -/
def getHeaderValueAsUint64 (headerName : ByteString) : Option Nat :=
  (m.getHeader headerName).bind (·.getUint64Value)

/-- The loop over the required headers; `false` if one throws. -/
def checkRequiredHeaders : Bool :=
  m.requiredHeaders.all fun (name, required) =>
    match m.headers.find name with
    | none => false
    | some header => required.value = [] || header.isValueEqual required.value

end HttpMessage

/-! ## Requests -/

inductive Method where
  | unknown | get | post | head | put | delete | options | connect
  deriving DecidableEq

def methodToString : Method → ByteString
  | .get => ascii "GET"
  | .post => ascii "POST"
  | .head => ascii "HEAD"
  | .put => ascii "PUT"
  | .delete => ascii "DELETE"
  | .options => ascii "OPTIONS"
  | .connect => ascii "CONNECT"
  | .unknown => ascii "unknown HTTP method"

/-- `methodFromString`, which throws for other texts. -/
def methodFromString (text : ByteString) : Option Method :=
  let text := text.map toUpper
  if text = ascii "GET" then some .get
  else if text = ascii "POST" then some .post
  else if text = ascii "HEAD" then some .head
  else if text = ascii "PUT" then some .put
  else if text = ascii "DELETE" then some .delete
  else if text = ascii "OPTIONS" then some .options
  else if text = ascii "CONNECT" then some .connect
  else none

structure HttpRequest extends HttpMessage where
  requiredMethods : List Method := []
  method : Method := .unknown
  deriving DecidableEq

namespace HttpRequest

variable (r : HttpRequest) (context : HttpRequestContext)

def reset : HttpRequest :=
  { r with created := false, finalized := false, method := .unknown, headers := [] }

def create : Except HttpRequest HttpRequest :=
  match methodFromString context.line.method with
  | none => .error r.reset
  | some method =>
    let r := { r with method := method }
    if !inRequiredSet r.method r.requiredMethods then .error r.reset
    else
      let r := { r with
        httpVersion := ⟨context.httpVersionMajor, context.httpVersionMinor⟩ }
      if !inRequiredSet r.httpVersion r.requiredVersions then .error r.reset
      else
        let headers := copyHeaders context.headers r.headers
        let headers :=
          if r.direction = .outbound then
            insertEntry (ascii "content-length")
              { name := ascii "Content-Length", value := decimal context.body.length } headers
          else headers
        let r := { r with headers := headers }
        if !r.checkRequiredHeaders then .error r.reset else .ok { r with created := true }

def finalize : Except HttpRequest HttpRequest :=
  match if r.created then .ok r else r.create context with
  | .error r => .error r
  | .ok r => .ok { r with finalized := true }

def crlf : ByteString := [0x0d, 0x0a]

/-- `toBriefString` of a finalized request. -/
def toBriefString : ByteString :=
  methodToString r.method ++ ascii " " ++ context.line.uri ++ ascii " HTTP/"
    ++ decimal r.httpVersion.major ++ ascii "." ++ decimal r.httpVersion.minor

def headerLine (header : HttpHeader) : ByteString :=
  header.name ++ ascii ": " ++ header.value ++ crlf

/-- `toString` of a finalized request. -/
def toString : ByteString :=
  r.toBriefString context ++ crlf ++ r.headers.flatMap (fun entry => headerLine entry.2) ++ crlf
    ++ context.body

end HttpRequest

/-! ## Responses -/

structure HttpResponse extends HttpMessage
  deriving DecidableEq

namespace HttpResponse

def reset (r : HttpResponse) : HttpResponse :=
  { r with created := false, finalized := false, headers := [] }

/-- `create`; `date` is the value of the date header now. -/
def create (date : ByteString) (r : HttpResponse) (context : HttpResponseContext) :
    Except HttpResponse HttpResponse :=
  let r := { r with httpVersion := ⟨context.httpVersionMajor, context.httpVersionMinor⟩ }
  if !inRequiredSet r.httpVersion r.requiredVersions then .error r.reset
  else
    let headers := copyHeaders context.headers r.headers
    let headers :=
      if r.direction = .outbound then
        insertEntry (ascii "date") { name := ascii "Date", value := date }
          (insertEntry (ascii "content-length")
            { name := ascii "Content-Length", value := decimal context.body.length } headers)
      else headers
    let r := { r with headers := headers }
    if !r.checkRequiredHeaders then .error r.reset else .ok { r with created := true }

def finalize (date : ByteString) (r : HttpResponse) (context : HttpResponseContext) :
    Except HttpResponse HttpResponse :=
  match if r.created then .ok r else r.create date context with
  | .error r => .error r
  | .ok r => .ok { r with finalized := true }

end HttpResponse

end Http
