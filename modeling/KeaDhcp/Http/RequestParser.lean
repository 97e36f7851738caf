import KeaDhcp.Http.MessageParser

/-!
# The parsers of requests and responses

`HttpRequestParser` and `HttpResponseParser` of `src/lib/http/request_parser.cc` and
`response_parser.cc`: their states, with the handler of each.
-/

namespace Http

open Util HttpResponse HttpRequest

variable {μ : Type}

/-! ## Requests -/

inductive RequestState where
  | receiveStart | httpMethod | httpUri
  | httpVersionH | httpVersionT1 | httpVersionT2 | httpVersionP | httpVersionSlash
  | httpVersionMajorStart | httpVersionMajor | httpVersionMinorStart | httpVersionMinor
  | expectingNewLine1 | headerLineStart | headerLws | headerName | spaceBeforeHeaderValue
  | headerValue | expectingNewLine2 | expectingNewLine3 | httpBody
  deriving DecidableEq

namespace HttpRequestParser

def states : HeaderStates RequestState where
  headerLws := .headerLws
  headerName := .headerName
  spaceBeforeHeaderValue := .spaceBeforeHeaderValue
  headerValue := .headerValue
  expectingNewLine2 := .expectingNewLine2
  expectingNewLine3 := .expectingNewLine3
  body := .httpBody

def pushMethod (context : HttpRequestContext) (c : UInt8) : HttpRequestContext :=
  { context with line := { context.line with method := context.line.method ++ [c] } }

def pushUri (context : HttpRequestContext) (c : UInt8) : HttpRequestContext :=
  { context with line := { context.line with uri := context.line.uri ++ [c] } }

def receiveStartHandler : ReadLogic RequestState RequestLine μ :=
  fun context message c =>
    if !isChar c || isCtl c || isSpecial c then
      (context, message, .parseFailure
        (ascii "invalid first character " ++ [c] ++ ascii " in HTTP method name"))
    else (pushMethod context c, message, .transition (.derived .httpMethod) .dataReadOk)

def httpMethodHandler : ReadLogic RequestState RequestLine μ :=
  fun context message c =>
    if c = 0x20 then (context, message, .transition (.derived .httpUri) .dataReadOk)
    else if !isChar c || isCtl c || isSpecial c then
      (context, message, .parseFailure
        (ascii "invalid character " ++ [c] ++ ascii " in HTTP method name"))
    else (pushMethod context c, message, .transition (.derived .httpMethod) .dataReadOk)

def uriHandler : ReadLogic RequestState RequestLine μ :=
  fun context message c =>
    if c = 0x20 then (context, message, .transition (.derived .httpVersionH) .dataReadOk)
    else if isCtl c then
      (context, message, .parseFailure (ascii "control character found in HTTP URI"))
    else (pushUri context c, message, .transition (.derived .httpUri) .dataReadOk)

/-- The handlers, as `defineStates` assigns them. -/
def logic (C : MessageClass RequestLine μ) : RequestState → ReadLogic RequestState RequestLine μ
  | .receiveStart => receiveStartHandler
  | .httpMethod => httpMethodHandler
  | .httpUri => uriHandler
  | .httpVersionH => versionHTTPHandler 0x48 .httpVersionT1
  | .httpVersionT1 => versionHTTPHandler 0x54 .httpVersionT2
  | .httpVersionT2 => versionHTTPHandler 0x54 .httpVersionP
  | .httpVersionP => versionHTTPHandler 0x50 .httpVersionSlash
  | .httpVersionSlash => versionHTTPHandler 0x2f .httpVersionMajor
  | .httpVersionMajorStart =>
    numberStartHandler .httpVersionMajor (ascii "HTTP version") versionMajor
  | .httpVersionMajor =>
    numberHandler 0x2e .httpVersionMinorStart (ascii "HTTP version") versionMajor
  | .httpVersionMinorStart =>
    numberStartHandler .httpVersionMinor (ascii "HTTP version") versionMinor
  | .httpVersionMinor =>
    numberHandler 0x0d .expectingNewLine1 (ascii "HTTP version") versionMinor
  | .expectingNewLine1 => expectingNewLineHandler C states (.derived .headerLineStart)
  | .headerLineStart => headerLineStartHandler states
  | .headerLws => headerLwsHandler states
  | .headerName => headerNameHandler states
  | .spaceBeforeHeaderValue => spaceBeforeHeaderValueHandler states
  | .headerValue => headerValueHandler states
  | .expectingNewLine2 => expectingNewLineHandler C states (.derived .headerLineStart)
  | .expectingNewLine3 => expectingNewLineHandler C states .parseOk
  | .httpBody => bodyHandler C states

end HttpRequestParser

/-- `HttpRequestParser` for the messages of a class. -/
def httpRequestParser (C : MessageClass RequestLine μ) :
    ParserClass RequestState RequestLine μ where
  start := .receiveStart
  logic := HttpRequestParser.logic C
  finalize := C.finalize

/-- The class `HttpRequest`. -/
def httpRequestClass : MessageClass RequestLine HttpRequest where
  create := create
  finalize := finalize
  requiresBody r := r.requiresBody
  contentLength r := r.getHeaderValueAsUint64 (ascii "Content-Length")

/-! ## Responses -/

inductive ResponseState where
  | receiveStart | httpVersionT1 | httpVersionT2 | httpVersionP | httpVersionSlash
  | httpVersionMajorStart | httpVersionMajor | httpVersionMinorStart | httpVersionMinor
  | httpStatusCodeStart | httpStatusCode | httpPhraseStart | httpPhrase
  | expectingNewLine1 | headerLineStart | headerLws | headerName | spaceBeforeHeaderValue
  | headerValue | expectingNewLine2 | expectingNewLine3 | httpBody
  deriving DecidableEq

namespace HttpResponseParser

def states : HeaderStates ResponseState where
  headerLws := .headerLws
  headerName := .headerName
  spaceBeforeHeaderValue := .spaceBeforeHeaderValue
  headerValue := .headerValue
  expectingNewLine2 := .expectingNewLine2
  expectingNewLine3 := .expectingNewLine3
  body := .httpBody

def statusCode : Storage StatusLine where
  get context := context.line.statusCode
  set context value := { context with line := { context.line with statusCode := value } }

def pushPhrase (context : HttpResponseContext) (c : UInt8) : HttpResponseContext :=
  { context with line := { context.line with phrase := context.line.phrase ++ [c] } }

def receiveStartHandler : ReadLogic ResponseState StatusLine μ :=
  fun context message c =>
    if c = 0x48 then (context, message, .transition (.derived .httpVersionT1) .dataReadOk)
    else
      (context, message, .parseFailure
        (ascii "unexpected first character " ++ [c] ++ ascii ": expected 'H'"))

def phraseStartHandler : ReadLogic ResponseState StatusLine μ :=
  fun context message c =>
    if !isChar c || isCtl c then
      (context, message, .parseFailure
        (ascii "invalid first character " ++ [c] ++ ascii " in HTTP phrase"))
    else (pushPhrase context c, message, .transition (.derived .httpPhrase) .dataReadOk)

def phraseHandler : ReadLogic ResponseState StatusLine μ :=
  fun context message c =>
    if c = 0x0d then (context, message, .transition (.derived .expectingNewLine1) .dataReadOk)
    else if !isChar c || isCtl c then
      (context, message, .parseFailure
        (ascii "invalid character " ++ [c] ++ ascii " in HTTP phrase"))
    else (pushPhrase context c, message, .transition (.derived .httpPhrase) .dataReadOk)

/-- The handlers, as `defineStates` assigns them. -/
def logic (C : MessageClass StatusLine μ) : ResponseState → ReadLogic ResponseState StatusLine μ
  | .receiveStart => receiveStartHandler
  | .httpVersionT1 => versionHTTPHandler 0x54 .httpVersionT2
  | .httpVersionT2 => versionHTTPHandler 0x54 .httpVersionP
  | .httpVersionP => versionHTTPHandler 0x50 .httpVersionSlash
  | .httpVersionSlash => versionHTTPHandler 0x2f .httpVersionMajor
  | .httpVersionMajorStart =>
    numberStartHandler .httpVersionMajor (ascii "HTTP version") versionMajor
  | .httpVersionMajor =>
    numberHandler 0x2e .httpVersionMinorStart (ascii "HTTP version") versionMajor
  | .httpVersionMinorStart =>
    numberStartHandler .httpVersionMinor (ascii "HTTP version") versionMinor
  | .httpVersionMinor =>
    numberHandler 0x20 .httpStatusCodeStart (ascii "HTTP version") versionMinor
  | .httpStatusCodeStart =>
    numberStartHandler .httpStatusCode (ascii "HTTP status code") statusCode
  | .httpStatusCode =>
    numberHandler 0x20 .httpPhraseStart (ascii "HTTP status code") statusCode
  | .httpPhraseStart => phraseStartHandler
  | .httpPhrase => phraseHandler
  | .expectingNewLine1 => expectingNewLineHandler C states (.derived .headerLineStart)
  | .headerLineStart => headerLineStartHandler states
  | .headerLws => headerLwsHandler states
  | .headerName => headerNameHandler states
  | .spaceBeforeHeaderValue => spaceBeforeHeaderValueHandler states
  | .headerValue => headerValueHandler states
  | .expectingNewLine2 => expectingNewLineHandler C states (.derived .headerLineStart)
  | .expectingNewLine3 => expectingNewLineHandler C states .parseOk
  | .httpBody => bodyHandler C states

end HttpResponseParser

/-- `HttpResponseParser` for the messages of a class. -/
def httpResponseParser (C : MessageClass StatusLine μ) :
    ParserClass ResponseState StatusLine μ where
  start := .receiveStart
  logic := HttpResponseParser.logic C
  finalize := C.finalize

/-- The class `HttpResponse`. -/
def httpResponseClass (date : ByteString) : MessageClass StatusLine HttpResponse where
  create := create date
  finalize := finalize date
  requiresBody r := r.requiresBody
  contentLength r := r.getHeaderValueAsUint64 (ascii "Content-Length")

end Http
