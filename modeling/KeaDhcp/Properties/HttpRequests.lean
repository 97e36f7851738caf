import KeaDhcp.Properties.HttpChunks

/-!
# Requests that are generated and parsed

`HttpRequest::toString` of an outbound request, read by the parser of a request without
requirements: one lemma for each part of the text, and the body at the end.
-/

namespace Http

open Infra Util HttpMessageParser HttpRequestParser HttpMessage List HttpRequest

variable {bytes : List UInt8} {headers : List HttpHeaderContext} {method : Method}
    {entry : ByteString × HttpHeader}

/-! ## What a request may hold -/

/-- A character that names of methods and headers may have. -/
def isToken (c : UInt8) : Bool := isChar c && !isCtl c && !isSpecial c

theorem not_isToken {c : UInt8} : (!isChar c || isCtl c || isSpecial c) = !isToken c := by
  unfold isToken
  cases isChar c <;> cases isCtl c <;> cases isSpecial c <;> rfl

/-- The name is a token and the value has no control characters and no leading space. -/
structure WellFormedHeader (name value : ByteString) : Prop where
  name_ne : name ≠ []
  token : ∀ c ∈ name, isToken c = true
  noCtl : ∀ c ∈ value, isCtl c = false
  noSpace : value.head? ≠ some 0x20

/-- What is promised of the context of an outbound request. -/
structure Sendable (context : HttpRequestContext) : Prop where
  uri : ∀ c ∈ context.line.uri, c ≠ 0x20 ∧ isCtl c = false
  major : context.httpVersionMajor = 1
  minor : context.httpVersionMinor = 0 ∨ context.httpVersionMinor = 1
  headers : ∀ header ∈ context.headers, WellFormedHeader header.name header.value
  /-- The length of a string is a `size_t`. -/
  body : context.body.length < 2 ^ 64

/-! ## The parts of the text -/

variable {context : HttpRequestContext} {text : ByteString} {message : HttpRequest}

section Parts

/-- The characters of a field are appended to it, one by one. -/
theorem scan_field {state : RequestState} {f : ByteString → HttpRequestContext}
    (hlogic : ∀ text, ∀ c ∈ bytes, requestParser.logic state (f text) message c
      = (f (text ++ [c]), message, .transition (.derived state) .dataReadOk)) :
    (Scan.reading state (f text) message).scan requestParser bytes
      = .reading state (f (text ++ bytes)) message := by
  induction bytes generalizing text with
  | nil => simp
  | cons c bytes ih =>
    simp only [Scan.scan_cons, Scan.scanByte, hlogic text c mem_cons_self, Scan.after]
    rw [ih fun text c hc => hlogic text c (mem_cons_of_mem _ hc), append_assoc, singleton_append]

/-- The name of the method, which is a token. -/
theorem scan_method (hne : bytes ≠ []) (htoken : ∀ c ∈ bytes, isToken c = true) :
    (Scan.reading .receiveStart context message).scan requestParser bytes
      = .reading .httpMethod { context with
          line := { context.line with method := context.line.method ++ bytes } } message := by
  cases bytes with
  | nil => exact absurd rfl hne
  | cons c bytes =>
    have hfirst : requestParser.logic .receiveStart context message c
        = (pushMethod context c, message,
          .transition (.derived .httpMethod) .dataReadOk) := by
      show receiveStartHandler context message c = _
      simp [receiveStartHandler, not_isToken, htoken c]
    simp only [Scan.scan_cons, Scan.scanByte, hfirst, Scan.after]
    refine (scan_field (f := fun text => { context with
      line := { context.line with method := text } }) fun text c hc => ?_).trans (by simp)
    have hc := htoken c (mem_cons_of_mem _ hc)
    have hspace : c ≠ 0x20 := by rintro rfl; exact absurd hc (by decide)
    show httpMethodHandler _ message c = _
    simp [httpMethodHandler, not_isToken, hc, hspace, pushMethod]

theorem scan_uri (huri : ∀ c ∈ bytes, c ≠ 0x20 ∧ isCtl c = false) :
    (Scan.reading .httpUri context message).scan requestParser bytes
      = .reading .httpUri { context with
          line := { context.line with uri := context.line.uri ++ bytes } } message := by
  refine scan_field (f := fun text => { context with line := { context.line with uri := text } })
    fun text c hc => ?_
  obtain ⟨hspace, hctl⟩ := huri c hc
  show uriHandler _ message c = _
  simp [uriHandler, hspace, hctl, pushUri]

/-- From the space behind the URI to the end of the line, for the version `1.minor`. -/
theorem scan_version {minor : Nat} (hminor : minor = 0 ∨ minor = 1) :
    (Scan.reading .httpUri context message).scan requestParser
        (ascii " HTTP/" ++ decimal 1 ++ ascii "." ++ decimal minor ++ crlf)
      = .reading .headerLineStart
          { context with httpVersionMajor := 1, httpVersionMinor := minor } message := by
  rcases hminor with rfl | rfl <;> rfl

/-! ### Headers -/

variable {header : HttpHeaderContext}

@[simp] theorem updateBack_concat {f : HttpHeaderContext → HttpHeaderContext} :
    updateBack f (headers ++ [header]) = headers ++ [f header] := by
  induction headers with
  | nil => rfl
  | cons first headers ih =>
    cases headers with
    | nil => rfl
    | cons second headers =>
      simp only [cons_append, updateBack] at ih ⊢
      rw [ih]

variable {name : ByteString}

theorem scan_headerName (hne : name ≠ []) (htoken : ∀ c ∈ name, isToken c = true) :
    (Scan.reading .headerLineStart context message).scan requestParser name
      = .reading .headerName
          { context with headers := context.headers ++ [{ name := name }] } message := by
  cases name with
  | nil => exact absurd rfl hne
  | cons c name =>
    have hc := htoken c mem_cons_self
    have hcr : c ≠ 0x0d := by rintro rfl; exact absurd hc (by decide)
    have hspace : c ≠ 0x20 := by rintro rfl; exact absurd hc (by decide)
    have htab : c ≠ 0x09 := by rintro rfl; exact absurd hc (by decide)
    have hfirst : requestParser.logic .headerLineStart context message c
        = ({ context with headers := context.headers ++ [{ name := [c] }] }, message,
          .transition (.derived .headerName) .dataReadOk) := by
      show headerLineStartHandler states context message c = _
      simp [headerLineStartHandler, not_isToken, hc, hcr, hspace, htab, states]
    simp only [Scan.scan_cons, Scan.scanByte, hfirst, Scan.after]
    refine scan_field (f := fun text => { context with
      headers := context.headers ++ [{ name := text }] }) fun text c hmem => ?_
    have hc := htoken c (mem_cons_of_mem _ hmem)
    have hcolon : c ≠ 0x3a := by rintro rfl; exact absurd hc (by decide)
    show headerNameHandler states _ message c = _
    simp [headerNameHandler, not_isToken, hc, hcolon, states, pushName]

/-- The value of the last header, with the end of its line. -/
theorem scan_headerValue {value : ByteString} (hctl : ∀ c ∈ value, isCtl c = false)
    (hspace : value.head? ≠ some 0x20) :
    (Scan.reading .spaceBeforeHeaderValue
        { context with headers := headers ++ [{ name := name }] } message).scan requestParser
        (value ++ crlf)
      = .reading .headerLineStart
          { context with headers := headers ++ [{ name := name, value := value }] } message := by
  cases value with
  | nil => rfl
  | cons c value =>
    have hne : c ≠ 0x20 := fun heq => hspace (by rw [heq]; rfl)
    have hcr : ∀ c, isCtl c = false → c ≠ 0x0d := by
      rintro c hc rfl
      exact absurd hc (by decide)
    let field (text : ByteString) : HttpRequestContext :=
      { context with headers := headers ++ [{ name := name, value := text }] }
    have hfirst : requestParser.logic .spaceBeforeHeaderValue (field []) message c
        = (field [c], message, .transition (.derived .headerValue) .dataReadOk) := by
      have hc := hctl c mem_cons_self
      show spaceBeforeHeaderValueHandler states _ message c = _
      simp [spaceBeforeHeaderValueHandler, valueCharacter, hne, hcr c hc, hc, states, pushValue, field]
    have hrest : (Scan.reading .headerValue (field [c]) message).scan requestParser value
        = .reading .headerValue (field (c :: value)) message := by
      refine scan_field fun text c hmem => ?_
      have hc := hctl c (mem_cons_of_mem _ hmem)
      show headerValueHandler states _ message c = _
      simp [headerValueHandler, valueCharacter, hcr c hc, hc, states, pushValue, field]
    show (Scan.reading .spaceBeforeHeaderValue (field []) message).scan requestParser _ = _
    simp only [cons_append, Scan.scan_cons, Scan.scanByte, hfirst, Scan.after]
    rw [Scan.scan_append, hrest]
    rfl

/-- A header line adds a header. -/
theorem scan_headerLine {header : HttpHeader} (h : WellFormedHeader header.name header.value) :
    (Scan.reading .headerLineStart context message).scan requestParser
        (headerLine header)
      = .reading .headerLineStart { context with
          headers := context.headers ++ [{ name := header.name, value := header.value }] }
          message := by
  have htext : headerLine header
      = header.name ++ (ascii ": " ++ (header.value ++ crlf)) := by
    simp [headerLine]
  rw [htext, Scan.scan_append, scan_headerName h.name_ne h.token]
  exact scan_headerValue h.noCtl h.noSpace

theorem scan_headers {headers : HttpHeaderMap}
    (h : ∀ entry ∈ headers, WellFormedHeader entry.2.name entry.2.value) :
    (Scan.reading .headerLineStart context message).scan requestParser
        (headers.flatMap fun entry => headerLine entry.2)
      = .reading .headerLineStart { context with
          headers := context.headers ++ headers.map fun entry =>
            { name := entry.2.name, value := entry.2.value } } message := by
  induction headers generalizing context with
  | nil => simp
  | cons entry headers ih =>
    rw [flatMap_cons, Scan.scan_append, scan_headerLine (h entry mem_cons_self),
      ih fun entry hmem => h entry (mem_cons_of_mem _ hmem)]
    simp

end Parts

/-! ## The request that the parser makes -/

theorem methodFromString_known (h : methodFromString text = some method) : method ≠ .unknown := by
  rintro rfl
  unfold methodFromString at h
  dsimp only at h
  split_ifs at h <;> cases h

theorem methodFromString_methodToString (h : method ≠ .unknown) :
    methodFromString (methodToString method) = some method := by
  cases method with
  | unknown => exact absurd rfl h
  | get | post | head | put | delete | options | connect => decide

theorem methodToString_token (h : method ≠ .unknown) :
    methodToString method ≠ [] ∧ ∀ c ∈ methodToString method, isToken c = true := by
  cases method with
  | unknown => exact absurd rfl h
  | get | post | head | put | delete | options | connect => decide +kernel

/-- A request that the parser has created. -/
def parsedRequest (method : Method) (version : HttpVersion) (headers : HttpHeaderMap) :
    HttpRequest :=
  { direction := .inbound, httpVersion := version, created := true, headers := headers
    method := method }

theorem create_inbound (hmethod : methodFromString context.line.method = some method) :
    create { direction := .inbound } context
      = .ok (parsedRequest method ⟨context.httpVersionMajor, context.httpVersionMinor⟩
          (copyHeaders context.headers [])) := by
  simp [create, hmethod, inRequiredSet, checkRequiredHeaders, parsedRequest]

/-- What `finalize` makes of an outbound request. -/
structure Finalized (context : HttpRequestContext) (r : HttpRequest) : Prop where
  method : methodFromString context.line.method = some r.method
  version : r.httpVersion = ⟨context.httpVersionMajor, context.httpVersionMinor⟩
  headers : r.headers = insertEntry (ascii "content-length")
    { name := ascii "Content-Length", value := decimal context.body.length }
    (copyHeaders context.headers [])

variable {r : HttpRequest}

/-- An outbound request has a content length that fits. -/
theorem finalized_of_finalize {r₀ : HttpRequest} (hdirection : r₀.direction = .outbound)
    (hcreated : r₀.created = false) (hheaders : r₀.headers = []) (h : r₀.finalize context = .ok r) :
    Finalized context r := by
  unfold finalize at h
  rw [hcreated] at h
  cases hcreate : r₀.create context with
  | error r₁ =>
    rw [hcreate] at h
    cases h
  | ok r₁ =>
    rw [hcreate] at h
    cases h
    unfold create at hcreate
    cases hmethod : methodFromString context.line.method with
    | none =>
      rw [hmethod] at hcreate
      cases hcreate
    | some method =>
      rw [hmethod] at hcreate
      dsimp only at hcreate
      rw [hheaders] at hcreate
      split_ifs at hcreate
      cases hcreate
      exact ⟨hmethod, rfl, rfl⟩

theorem copyHeaders_eq {context : List HttpHeaderContext} {headers : HttpHeaderMap} :
    copyHeaders context headers = insertEntries
      (context.map fun header => (lowercase header.name, ⟨header.name, header.value⟩)) headers := by
  unfold copyHeaders insertEntries
  rw [foldl_map]
  rfl

theorem mem_copyHeaders {context : List HttpHeaderContext} {headers : HttpHeaderMap}
    (h : entry ∈ copyHeaders context headers) :
    (∃ header ∈ context, entry = (lowercase header.name, ⟨header.name, header.value⟩)) ∨
      entry ∈ headers := by
  induction context generalizing headers with
  | nil => exact .inr h
  | cons header context ih =>
    rcases ih h with ⟨header', hmem, heq⟩ | hmem
    · exact .inl ⟨header', mem_cons_of_mem _ hmem, heq⟩
    rcases mem_insertEntry hmem with heq | hmem
    · exact .inl ⟨header, mem_cons_self, heq⟩
    · exact .inr hmem

theorem contentLength_wellFormed {n : Nat} :
    WellFormedHeader (ascii "Content-Length") (decimal n) where
  name_ne := by decide
  token := by decide +kernel
  noCtl := by
    intro c hc
    have hdigit := isDigit_of_mem_decimal hc
    have h127 : c ≠ 127 := by rintro rfl; exact absurd hdigit.2 (by decide)
    have h31 : ¬c ≤ 31 := by
      exact fun hle => absurd (hdigit.1.trans hle) (by decide)
    simp [isCtl, h31, h127]
  noSpace := by
    intro hhead
    have hdigit := isDigit_of_mem_decimal (mem_of_head? hhead)
    exact absurd hdigit (by decide)

namespace Finalized

variable (h : Finalized context r)

include h

theorem sorted : SortedKeys r.headers := by
  rw [h.headers, copyHeaders_eq]
  exact (SortedKeys.insertEntries List.Pairwise.nil _).insertEntry _ _

theorem mem_headers (hmem : entry ∈ r.headers) :
    entry = (ascii "content-length",
      { name := ascii "Content-Length", value := decimal context.body.length }) ∨
    ∃ header ∈ context.headers, entry = (lowercase header.name, ⟨header.name, header.value⟩) := by
  rw [h.headers] at hmem
  rcases mem_insertEntry hmem with heq | hmem
  · exact .inl heq
  rcases mem_copyHeaders hmem with hheader | hmem
  · exact .inr hheader
  · cases hmem

theorem key_eq (hmem : entry ∈ r.headers) : (lowercase entry.2.name, entry.2) = entry := by
  rcases h.mem_headers hmem with rfl | ⟨header, -, rfl⟩
  · rfl
  · rfl

theorem wellFormed (hsend : Sendable context) :
    ∀ entry ∈ r.headers, WellFormedHeader entry.2.name entry.2.value := by
  intro entry hmem
  rcases h.mem_headers hmem with rfl | ⟨header, hheader, rfl⟩
  · exact contentLength_wellFormed
  · exact hsend.headers header hheader

/-- The headers come back as they were written. -/
theorem copyHeaders_read :
    copyHeaders (r.headers.map fun entry =>
      { name := entry.2.name, value := entry.2.value }) [] = r.headers := by
  have hentries : (r.headers.map fun entry =>
      ({ name := entry.2.name, value := entry.2.value } : HttpHeaderContext)).map
        (fun header => (lowercase header.name, (⟨header.name, header.value⟩ : HttpHeader)))
      = r.headers := by
    rw [map_map]
    conv_rhs => rw [← map_id r.headers]
    exact map_congr_left fun entry hmem => h.key_eq hmem
  rw [copyHeaders_eq, hentries]
  exact insertEntries_eq h.sorted (List.Perm.refl _)

end Finalized

/-! ## The body -/

/-- The body ends with the content length. -/
theorem scan_body {rest : List UInt8} (hne : rest ≠ [])
    (hlength : httpRequestClass.contentLength message = some (context.body.length + rest.length)) :
    (Scan.reading .httpBody context message).scan requestParser rest
      = Scan.after requestParser .httpBody { context with body := context.body ++ rest } message
          (.transition .parseOk .httpParseOk) := by
  induction rest generalizing context with
  | nil => exact absurd rfl hne
  | cons c rest ih =>
    have hlogic : requestParser.logic .httpBody context message c
        = bodyHandler httpRequestClass states context message c := rfl
    by_cases hrest : rest = []
    · subst hrest
      simp [Scan.scanByte, hlogic, bodyHandler, hlength]
    have hmore : context.body.length + 1 < context.body.length + (rest.length + 1) := by
      have := length_pos_iff.mpr hrest
      omega
    have hstep : (Scan.reading .httpBody context message).scanByte requestParser c
        = .reading .httpBody { context with body := context.body ++ [c] } message := by
      simp only [Scan.scanByte, hlogic, bodyHandler, hlength, length_append,
        length_cons, length_nil, hmore]
      rfl
    rw [Scan.scan_cons, hstep]
    refine (ih hrest ?_).trans ?_
    · rw [hlength]
      simp
      omega
    · simp

section Whole

/-- What the parser has read before the empty line. -/
def readContext (context : HttpRequestContext) (r : HttpRequest) : HttpRequestContext :=
  { line := { method := methodToString r.method, uri := context.line.uri }
    httpVersionMajor := context.httpVersionMajor
    httpVersionMinor := context.httpVersionMinor
    headers := r.headers.map fun entry => { name := entry.2.name, value := entry.2.value } }

section

variable (hsend : Sendable context) (h : Finalized context r)

include hsend h

/-- Everything before the body. -/
theorem scan_upToHeaders :
    (Scan.reading .receiveStart { line := {} } { direction := .inbound }).scan requestParser
        (r.toString context)
      = (Scan.reading .headerLineStart (readContext context r) { direction := .inbound }).scan
          requestParser (crlf ++ context.body) := by
  obtain ⟨hne, htoken⟩ := methodToString_token (methodFromString_known h.method)
  have hversion : r.httpVersion = ⟨1, context.httpVersionMinor⟩ := by rw [h.version, hsend.major]
  have htext : r.toString context = methodToString r.method ++ (ascii " " ++ (context.line.uri
      ++ ((ascii " HTTP/" ++ decimal 1 ++ ascii "." ++ decimal context.httpVersionMinor
        ++ HttpRequest.crlf) ++ ((r.headers.flatMap fun entry => HttpRequest.headerLine entry.2)
          ++ (HttpRequest.crlf ++ context.body))))) := by
    simp [HttpRequest.toString, HttpRequest.toBriefString, hversion]
  rw [htext, Scan.scan_append, scan_method hne htoken, Scan.scan_append]
  have hspace : ∀ (context : HttpRequestContext) (message : HttpRequest),
      (Scan.reading .httpMethod context message).scan requestParser (ascii " ")
        = .reading .httpUri context message := fun _ _ => rfl
  rw [hspace, Scan.scan_append, scan_uri hsend.uri, Scan.scan_append, scan_version hsend.minor,
    Scan.scan_append, scan_headers (h.wellFormed hsend)]
  simp [readContext, hsend.major]

/-- The request that the parser has created when it comes to the body. -/
def readRequest (context : HttpRequestContext) (r : HttpRequest) : HttpRequest :=
  parsedRequest r.method ⟨context.httpVersionMajor, context.httpVersionMinor⟩ r.headers

omit hsend in
theorem create_read :
    create { direction := .inbound } (readContext context r)
      = .ok (readRequest context r) := by
  have hmethod : methodFromString (readContext context r).line.method = some r.method :=
    methodFromString_methodToString (methodFromString_known h.method)
  rw [create_inbound hmethod]
  unfold readContext readRequest
  rw [h.copyHeaders_read]

theorem contentLength_read :
    httpRequestClass.contentLength (readRequest context r) = some context.body.length := by
  have hname : lowercase (ascii "Content-Length") = ascii "content-length" := by decide
  show getHeaderValueAsUint64 _ (ascii "Content-Length") = _
  simp only [getHeaderValueAsUint64, getHeader, readRequest, parsedRequest,
    if_true, HttpHeaderMap.find, hname, h.headers, lookup_insertEntry]
  exact lexicalCastUint64_decimal hsend.body

/-- The empty line, behind which the body is expected if it has a length. -/
theorem scan_emptyLine :
    (Scan.reading .headerLineStart (readContext context r) { direction := .inbound }).scan
        requestParser crlf
      = .reading (if context.body = [] then .expectingNewLine3 else .httpBody)
          (readContext context r) (readRequest context r) := by
  have hcr : (Scan.reading .headerLineStart (readContext context r)
      { direction := .inbound }).scanByte requestParser 0x0d
        = .reading .expectingNewLine3 (readContext context r) { direction := .inbound } := rfl
  have hlogic : requestParser.logic .expectingNewLine3 (readContext context r)
      { direction := .inbound } 0x0a = expectingNewLineHandler httpRequestClass
        states .parseOk (readContext context r) { direction := .inbound } 0x0a :=
    rfl
  have hcreate : httpRequestClass.create { direction := .inbound } (readContext context r)
      = .ok (readRequest context r) := create_read h
  rw [crlf, Scan.scan_cons, hcr, Scan.scan_cons]
  simp only [Scan.scanByte, hlogic, expectingNewLineHandler, hcreate,
    contentLength_read hsend h]
  by_cases hbody : context.body = []
  · simp [hbody, Scan.after]
  have hpos := length_pos_iff.mpr hbody
  simp only [hbody, hpos]
  rfl

omit hsend h in
theorem finalize_read {context' : HttpRequestContext} :
    requestParser.finalize (readRequest context r) context'
      = .ok { readRequest context r with finalized := true } := rfl

/-- The end of the whole text. -/
theorem scan_toString :
    (Scan.reading .receiveStart { line := {} } { direction := .inbound }).scan requestParser
        (r.toString context)
      = if context.body = [] then
          .reading .expectingNewLine3 (readContext context r) (readRequest context r)
        else
          .ended .parseOk { readContext context r with body := context.body }
            { readRequest context r with finalized := true } := by
  rw [scan_upToHeaders hsend h, Scan.scan_append, scan_emptyLine hsend h]
  by_cases hbody : context.body = []
  · simp [hbody]
  simp only [hbody, if_false]
  have hlength : httpRequestClass.contentLength (readRequest context r)
      = some ((readContext context r).body.length + context.body.length) := by
    rw [contentLength_read hsend h]
    simp [readContext]
  rw [scan_body hbody hlength]
  simp only [Scan.after, finalize_read]
  simp [readContext]

omit hsend in
theorem toString_ne_nil : r.toString context ≠ [] := by
  have hne := (methodToString_token (methodFromString_known h.method)).1
  simp [HttpRequest.toString, HttpRequest.toBriefString, hne]

end

variable {body : ByteString} {p : HttpMessageParser RequestState RequestLine HttpRequest}

theorem needData_of_phase (h : p.phase = .needsData) : p.needData = true := by
  unfold phase at h
  split_ifs at h with hneed
  exact hneed

theorem httpParseOk_of_needData (h : p.needData = true) : p.httpParseOk = false := by
  simp only [needData, decide_eq_true_eq] at h
  rcases h with h | h <;> simp [httpParseOk, h]

/-- The parser that has been given the text of the request at once. -/
def readBack (context : HttpRequestContext) (r : HttpRequest) :
    HttpMessageParser RequestState RequestLine HttpRequest :=
  newRequest.receiveAll requestParser [r.toString context]

/-- The request has been parsed to its end, and it is the one that was sent. -/
structure Understood (context : HttpRequestContext) (r : HttpRequest)
    (p : HttpMessageParser RequestState RequestLine HttpRequest) : Prop where
  parseOk : p.httpParseOk = true
  noNeed : p.needData = false
  method : p.message.method = r.method
  uri : p.context.line.uri = context.line.uri
  version : p.message.httpVersion = r.httpVersion
  headers : p.message.headers = r.headers
  body : p.context.body = context.body

/--
**A generated request is understood**, exactly if it has a body: behind the headers of a request
whose content has the length 0 the parser asks for more data.
-/
theorem understood_iff {r₀ r : HttpRequest} {context : HttpRequestContext}
    (hdirection : r₀.direction = .outbound) (hcreated : r₀.created = false)
    (hheaders : r₀.headers = []) (hfinal : r₀.finalize context = .ok r)
    (hsend : Sendable context) : Understood context r (readBack context r) ↔ context.body ≠ [] := by
  have h := finalized_of_finalize hdirection hcreated hheaders hfinal
  have houtcome := (newRequest_at (toString_ne_nil h)).outcome_eq
  rw [scan_toString hsend h] at houtcome
  by_cases hbody : context.body = []
  · refine iff_of_false (fun hunder => ?_) (fun hne => hne hbody)
    rw [if_pos hbody] at houtcome
    have hphase := congrArg Prod.fst houtcome
    have hok : (readBack context r).phase = .parseOk := by
      simp [phase, hunder.noNeed, hunder.parseOk]
    exact absurd (hok.symm.trans hphase) (by simp [Scan.outcome])
  · refine iff_of_true ?_ hbody
    rw [if_neg hbody] at houtcome
    have hphase : (readBack context r).phase = .parseOk := congrArg Prod.fst houtcome
    have hcontext : (readBack context r).context = { readContext context r with
      body := context.body } := congrArg (·.2.1) houtcome
    have hmessage : (readBack context r).message = { readRequest context r with
      finalized := true } := congrArg (·.2.2) houtcome
    have hflags : (readBack context r).httpParseOk = true ∧
        (readBack context r).needData = false := by
      unfold phase at hphase
      split_ifs at hphase with hneed hok
      exact ⟨hok, by simpa using hneed⟩
    exact {
      parseOk := hflags.1
      noNeed := hflags.2
      method := by rw [hmessage]; rfl
      uri := by rw [hcontext]; rfl
      version := by rw [hmessage, h.version]; rfl
      headers := by rw [hmessage]; rfl
      body := by rw [hcontext] }

/-- A request with one header of its own. -/
def sampleContext (body : ByteString) : HttpRequestContext :=
  { line := { method := ascii "POST", uri := ascii "/" }
    httpVersionMajor := 1
    headers := [{ name := ascii "Host", value := ascii "kea" }]
    body := body }

theorem sampleContext_sendable (h : body.length < 2 ^ 64) : Sendable (sampleContext body) where
  uri := by
    intro c hc
    rw [mem_singleton.mp hc]
    decide
  major := rfl
  minor := .inl rfl
  headers := by
    intro header hmem
    rw [mem_singleton.mp hmem]
    exact ⟨by decide, by decide +kernel, by decide +kernel, by decide⟩
  body := h

theorem sampleContext_finalized :
    ∃ r, finalize { direction := .outbound } (sampleContext body) = .ok r :=
  ⟨_, rfl⟩

theorem understood_sample : ∃ r, finalize { direction := .outbound }
    (sampleContext (ascii "x")) = .ok r ∧
      Understood (sampleContext (ascii "x")) r (readBack (sampleContext (ascii "x")) r) := by
  obtain ⟨r, hr⟩ := sampleContext_finalized
  have hsend : Sendable (sampleContext (ascii "x")) := sampleContext_sendable (by decide)
  exact ⟨r, hr, (understood_iff rfl rfl rfl hr hsend).mpr (by decide)⟩

/-- The same request without a body: the parser still needs data. -/
theorem emptyBody_not_understood : Sendable (sampleContext []) ∧
    ∃ r, finalize { direction := .outbound } (sampleContext []) = .ok r ∧
      (readBack (sampleContext []) r).needData = true ∧
      (readBack (sampleContext []) r).httpParseOk = false := by
  have hsend : Sendable (sampleContext []) := sampleContext_sendable (by decide)
  obtain ⟨r, hr⟩ := sampleContext_finalized
  have h := finalized_of_finalize rfl rfl rfl hr
  have houtcome := (newRequest_at (toString_ne_nil h)).outcome_eq
  rw [scan_toString hsend h] at houtcome
  have hneed := needData_of_phase (congrArg Prod.fst houtcome)
  exact ⟨hsend, r, hr, hneed, httpParseOk_of_needData hneed⟩

end Whole

end Http
