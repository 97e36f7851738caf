import KeaDhcp.Http.RequestParser
import KeaDhcp.Properties.HttpScan

/-!
# Requests and responses that arrive in pieces

The states of the two parsers whose handlers may make no transition: those that read a number, and
the one after the headers of a message whose content has the length 0.
-/

namespace Http

open Infra Util HttpRequestParser List HttpMessageParser

variable {σ κ μ : Type}

/-! ## The handlers of both parsers -/

variable {C : MessageClass κ μ} {next : σ}

section Handlers

variable {start : σ} {quiet : Prop} {context : HttpContext κ} {message : μ} {c : UInt8}
  {name : ByteString} {storage : Storage κ}

theorem versionHTTPHandler_allowed {expectedLetter : UInt8} (hnext : next ≠ start) :
    Allowed start quiet (versionHTTPHandler expectedLetter next context message c).2.2 := by
  unfold versionHTTPHandler
  split
  · exact .next hnext
  · exact .parseFailure _

theorem numberStartHandler_allowed (hnext : next ≠ start) :
    Allowed start quiet (numberStartHandler next name storage context message c).2.2 := by
  unfold numberStartHandler
  split
  · exact .next hnext
  · exact .parseFailure _

theorem numberHandler_allowed {following : UInt8} (hnext : next ≠ start) (hquiet : quiet) :
    Allowed start quiet (numberHandler following next name storage context message c).2.2 := by
  unfold numberHandler
  split
  · exact .next hnext
  split
  · exact .nothing hquiet
  · exact .parseFailure _

/-- The states of the headers and of the body are not the first one. -/
structure HeaderStates.Avoids (states : HeaderStates σ) (start : σ) : Prop where
  headerLws : states.headerLws ≠ start
  headerName : states.headerName ≠ start
  spaceBeforeHeaderValue : states.spaceBeforeHeaderValue ≠ start
  headerValue : states.headerValue ≠ start
  expectingNewLine2 : states.expectingNewLine2 ≠ start
  expectingNewLine3 : states.expectingNewLine3 ≠ start
  body : states.body ≠ start

variable {states : HeaderStates σ} (h : states.Avoids start)

theorem expectingNewLineHandler_allowed [DecidableEq σ] (hnext : next ≠ start) :
    Allowed start quiet
      (expectingNewLineHandler C states (.derived next) context message c).2.2 := by
  unfold expectingNewLineHandler
  split
  · rw [if_neg (by simp)]
    exact .next hnext
  · exact .parseFailure _

include h

theorem lastNewLineHandler_allowed [DecidableEq σ] (hquiet : quiet) :
    Allowed start quiet (expectingNewLineHandler C states .parseOk context message c).2.2 := by
  unfold expectingNewLineHandler
  split
  · rw [if_pos rfl]
    split
    · exact .throws
    split
    · split
      · exact .next h.body
      · exact .nothing hquiet
    · split
      · exact .parseFailure _
      · exact .parseOk
  · exact .parseFailure _

theorem headerLineStartHandler_allowed :
    Allowed start quiet (headerLineStartHandler states context message c).2.2 := by
  unfold headerLineStartHandler
  split
  · exact .next h.expectingNewLine3
  split
  · exact .next h.headerLws
  split
  · exact .parseFailure _
  · exact .next h.headerName

theorem valueCharacter_allowed :
    Allowed start quiet (valueCharacter states context message c).2.2 := by
  unfold valueCharacter
  split
  · exact .parseFailure _
  · exact .next h.headerValue

theorem headerLwsHandler_allowed :
    Allowed start quiet (headerLwsHandler states context message c).2.2 := by
  unfold headerLwsHandler
  split
  · exact .next h.expectingNewLine2
  split
  · exact .next h.headerLws
  · exact valueCharacter_allowed h

theorem headerNameHandler_allowed :
    Allowed start quiet (headerNameHandler states context message c).2.2 := by
  unfold headerNameHandler
  split
  · exact .next h.spaceBeforeHeaderValue
  split
  · exact .parseFailure _
  · exact .next h.headerName

theorem spaceBeforeHeaderValueHandler_allowed :
    Allowed start quiet (spaceBeforeHeaderValueHandler states context message c).2.2 := by
  unfold spaceBeforeHeaderValueHandler
  split
  · exact .next h.spaceBeforeHeaderValue
  split
  · exact .next h.expectingNewLine2
  · exact valueCharacter_allowed h

theorem headerValueHandler_allowed :
    Allowed start quiet (headerValueHandler states context message c).2.2 := by
  unfold headerValueHandler
  split
  · exact .next h.expectingNewLine2
  · exact valueCharacter_allowed h

theorem bodyHandler_allowed : Allowed start quiet (bodyHandler C states context message c).2.2 := by
  unfold bodyHandler
  dsimp only
  split
  · exact .throws
  split
  · exact .next h.body
  · exact .parseOk

end Handlers

/-! ## Silent chunks -/

/-- Only new lines, after headers that create a message whose content has the length 0. -/
def newLinesOnly (C : MessageClass κ μ) (context : HttpContext κ) : μ → List UInt8 → Prop
  | _, [] => True
  | message, c :: chunk =>
    match C.create message context with
    | .error _ => False
    | .ok message =>
      c = 0x0a ∧ C.contentLength message = some 0 ∧ newLinesOnly C context message chunk

variable {chunk : List UInt8} {state : σ} {P : ParserClass σ κ μ}

theorem idles_number {following : UInt8} {name : ByteString} {storage : Storage κ}
    (hlogic : P.logic state = numberHandler following next name storage)
    (hfollowing : isdigit following = false) {context : HttpContext κ} {message : μ} :
    idles P state context message chunk = true ↔ ∀ c ∈ chunk, isdigit c = true := by
  induction chunk generalizing context message with
  | nil => simp [idles]
  | cons c chunk ih =>
    simp only [idles, hlogic, numberHandler]
    by_cases hc : c = following
    · have hdigit : isdigit c = false := by rw [hc]; exact hfollowing
      simp [hc, hfollowing]
    rw [if_neg hc]
    by_cases hdigit : isdigit c = true
    · rw [if_pos hdigit]
      simp [ih, hdigit]
    · rw [if_neg hdigit]
      simp [hdigit]

theorem idles_lastNewLine [DecidableEq σ] {states : HeaderStates σ}
    (hlogic : P.logic state = expectingNewLineHandler C states .parseOk) {context : HttpContext κ}
    {message : μ} :
    idles P state context message chunk = true ↔ newLinesOnly C context message chunk := by
  induction chunk generalizing message with
  | nil => simp [idles, newLinesOnly]
  | cons c chunk ih =>
    simp only [idles, hlogic, expectingNewLineHandler, newLinesOnly]
    by_cases hc : c = 0x0a
    · rw [if_pos hc]
      cases hcreate : C.create message context with
      | error message' => simp
      | ok message' =>
        cases hlength : C.contentLength message' with
        | none => cases hbody : C.requiresBody message' <;> simp [hlength, hbody]
        | some contentLength =>
          cases contentLength with
          | zero => simp [ih, hc, hlength]
          | succ n => simp [hlength]
    · rw [if_neg hc]
      cases C.create message context <;> simp [hc]

namespace HttpRequestParser

/-- The states whose handlers may make no transition. -/
def silentStates : List RequestState := [.httpVersionMajor, .httpVersionMinor, .expectingNewLine3]

theorem states_avoids : states.Avoids .receiveStart := by
  constructor <;> decide

variable (C : MessageClass RequestLine μ)

theorem logic_allowed (state : RequestState) (context : HttpRequestContext) (message : μ)
    (c : UInt8) :
    Allowed .receiveStart (state ∈ silentStates) (logic C state context message c).2.2 := by
  cases state with
  | receiveStart =>
    simp only [logic, receiveStartHandler]
    split
    · exact .parseFailure _
    · exact .next (by decide)
  | httpMethod =>
    simp only [logic, httpMethodHandler]
    split
    · exact .next (by decide)
    split
    · exact .parseFailure _
    · exact .next (by decide)
  | httpUri =>
    simp only [logic, uriHandler]
    split
    · exact .next (by decide)
    split
    · exact .parseFailure _
    · exact .next (by decide)
  | httpVersionH | httpVersionT1 | httpVersionT2 | httpVersionP | httpVersionSlash =>
    exact versionHTTPHandler_allowed (by decide)
  | httpVersionMajorStart | httpVersionMinorStart =>
    exact numberStartHandler_allowed (by decide)
  | httpVersionMajor | httpVersionMinor =>
    exact numberHandler_allowed (by decide) (by decide)
  | expectingNewLine1 | expectingNewLine2 =>
    exact expectingNewLineHandler_allowed (by decide)
  | headerLineStart => exact headerLineStartHandler_allowed states_avoids
  | headerLws => exact headerLwsHandler_allowed states_avoids
  | headerName => exact headerNameHandler_allowed states_avoids
  | spaceBeforeHeaderValue => exact spaceBeforeHeaderValueHandler_allowed states_avoids
  | headerValue => exact headerValueHandler_allowed states_avoids
  | expectingNewLine3 => exact lastNewLineHandler_allowed states_avoids (by decide)
  | httpBody => exact bodyHandler_allowed states_avoids

theorem regular : Regular (httpRequestParser C) := by
  intro state context message c
  refine (logic_allowed C state context message c).mono ?_
  intro hstate heq
  rw [heq] at hstate
  exact absurd hstate (by simp [silentStates, httpRequestParser])

/-- No handler makes a transition for a byte of the chunk. -/
def Silent (p : HttpMessageParser RequestState RequestLine μ) (chunk : List UInt8) : Prop :=
  match p.model.currState with
  | .derived (.derived .httpVersionMajor) => ∀ c ∈ chunk, isdigit c = true
  | .derived (.derived .httpVersionMinor) => ∀ c ∈ chunk, isdigit c = true
  | .derived (.derived .expectingNewLine3) => newLinesOnly C p.context p.message chunk
  | _ => False

theorem silent_iff {p : HttpMessageParser RequestState RequestLine μ} (hchunk : chunk ≠ []) :
    Silent C p chunk ↔ p.Idle (httpRequestParser C) chunk := by
  unfold Silent
  split
  · next hcurr =>
    rw [idle_iff hcurr (by simp [httpRequestParser])]
    exact (idles_number rfl (by decide)).symm
  · next hcurr =>
    rw [idle_iff hcurr (by simp [httpRequestParser])]
    exact (idles_number rfl (by decide)).symm
  · next hcurr =>
    rw [idle_iff hcurr (by simp [httpRequestParser])]
    exact (idles_lastNewLine rfl).symm
  · next h1 h2 h3 =>
    refine iff_of_false not_false ?_
    refine not_idle (logic_allowed C) hchunk ?_
    intro state hcurr hmem
    simp only [silentStates, mem_cons, not_mem_nil, or_false] at hmem
    rcases hmem with rfl | rfl | rfl
    exacts [h1 hcurr, h2 hcurr, h3 hcurr]

end HttpRequestParser

namespace HttpResponseParser

/-- The states whose handlers may make no transition. -/
def silentStates : List ResponseState :=
  [.httpVersionMajor, .httpVersionMinor, .httpStatusCode, .expectingNewLine3]

theorem states_avoids : states.Avoids .receiveStart := by
  constructor <;> decide

variable (C : MessageClass StatusLine μ)

theorem logic_allowed (state : ResponseState) (context : HttpResponseContext) (message : μ)
    (c : UInt8) :
    Allowed .receiveStart (state ∈ silentStates) (logic C state context message c).2.2 := by
  cases state with
  | receiveStart =>
    simp only [logic, receiveStartHandler]
    split
    · exact .next (by decide)
    · exact .parseFailure _
  | httpPhraseStart =>
    simp only [logic, phraseStartHandler]
    split
    · exact .parseFailure _
    · exact .next (by decide)
  | httpPhrase =>
    simp only [logic, phraseHandler]
    split
    · exact .next (by decide)
    split
    · exact .parseFailure _
    · exact .next (by decide)
  | httpVersionT1 | httpVersionT2 | httpVersionP | httpVersionSlash =>
    exact versionHTTPHandler_allowed (by decide)
  | httpVersionMajorStart | httpVersionMinorStart | httpStatusCodeStart =>
    exact numberStartHandler_allowed (by decide)
  | httpVersionMajor | httpVersionMinor | httpStatusCode =>
    exact numberHandler_allowed (by decide) (by decide)
  | expectingNewLine1 | expectingNewLine2 =>
    exact expectingNewLineHandler_allowed (by decide)
  | headerLineStart => exact headerLineStartHandler_allowed states_avoids
  | headerLws => exact headerLwsHandler_allowed states_avoids
  | headerName => exact headerNameHandler_allowed states_avoids
  | spaceBeforeHeaderValue => exact spaceBeforeHeaderValueHandler_allowed states_avoids
  | headerValue => exact headerValueHandler_allowed states_avoids
  | expectingNewLine3 => exact lastNewLineHandler_allowed states_avoids (by decide)
  | httpBody => exact bodyHandler_allowed states_avoids

/-- No handler of the response parser goes back to its start. -/
theorem regular : Regular (httpResponseParser C) := by
  intro state context message c
  refine (logic_allowed C state context message c).mono ?_
  intro hstate heq
  rw [heq] at hstate
  exact absurd hstate (by simp [silentStates, httpResponseParser])

/-- No handler makes a transition for a byte of the chunk. -/
def Silent (p : HttpMessageParser ResponseState StatusLine μ) (chunk : List UInt8) : Prop :=
  match p.model.currState with
  | .derived (.derived .httpVersionMajor) => ∀ c ∈ chunk, isdigit c = true
  | .derived (.derived .httpVersionMinor) => ∀ c ∈ chunk, isdigit c = true
  | .derived (.derived .httpStatusCode) => ∀ c ∈ chunk, isdigit c = true
  | .derived (.derived .expectingNewLine3) => newLinesOnly C p.context p.message chunk
  | _ => False

/-- The handlers are idle for exactly these chunks. -/
theorem silent_iff {p : HttpMessageParser ResponseState StatusLine μ} (hchunk : chunk ≠ []) :
    Silent C p chunk ↔ p.Idle (httpResponseParser C) chunk := by
  unfold Silent
  split
  · next hcurr =>
    rw [idle_iff hcurr (by simp [httpResponseParser])]
    exact (idles_number rfl (by decide)).symm
  · next hcurr =>
    rw [idle_iff hcurr (by simp [httpResponseParser])]
    exact (idles_number rfl (by decide)).symm
  · next hcurr =>
    rw [idle_iff hcurr (by simp [httpResponseParser])]
    exact (idles_number rfl (by decide)).symm
  · next hcurr =>
    rw [idle_iff hcurr (by simp [httpResponseParser])]
    exact (idles_lastNewLine rfl).symm
  · next h1 h2 h3 h4 =>
    refine iff_of_false not_false ?_
    refine not_idle (logic_allowed C) hchunk ?_
    intro state hcurr hmem
    simp only [silentStates, mem_cons, not_mem_nil, or_false] at hmem
    rcases hmem with rfl | rfl | rfl | rfl
    exacts [h1 hcurr, h2 hcurr, h3 hcurr, h4 hcurr]

end HttpResponseParser

/-! ## Both parsers -/

section Chunks

open HttpMessageParser

variable {μ ν : Type}

/-- After each chunk the parser is where it would be if the bytes had been posted at once. -/
def SameAsWhole [DecidableEq σ] (P : ParserClass σ κ μ) (p : HttpMessageParser σ κ μ)
    (chunks : List (List UInt8)) : Prop :=
  ∀ received, received <+: chunks →
    (p.receiveAll P received).outcome = (p.receiveAll P [received.flatten]).outcome

variable {bytes : List UInt8} {P : ParserClass σ κ μ}

theorem sameAsWhole_iff_silent [DecidableEq σ] (hP : Regular P)
    {Silent : HttpMessageParser σ κ μ → List UInt8 → Prop}
    (hsilent : ∀ {p chunk}, chunk ≠ [] → (Silent p chunk ↔ p.Idle P chunk))
    {context : HttpContext κ} {message : μ} {chunks : List (List UInt8)}
    (hchunks : ∀ chunk ∈ chunks, chunk ≠ []) :
    SameAsWhole P (init P context message) chunks ↔ ∀ earlier chunk, earlier ++ [chunk] <+: chunks →
      ¬Silent ((init P context message).receiveAll P [earlier.flatten]) chunk := by
  refine (sameAsWhole_iff hP hchunks).trans ?_
  refine forall_congr' fun earlier => forall_congr' fun chunk => forall_congr' fun h => ?_
  rw [hsilent (hchunks chunk (h.subset (by simp)))]

/--
**How the data are split does not matter** to either parser, exactly if no chunk after the first
leaves it in a state without any transition.
-/
theorem split_independent_iff (C : MessageClass RequestLine μ) (D : MessageClass StatusLine ν)
    (requestContext : HttpRequestContext) (request : μ) (responseContext : HttpResponseContext)
    (response : ν) (requestChunks responseChunks : List (List UInt8))
    (hrequest : ∀ chunk ∈ requestChunks, chunk ≠ [])
    (hresponse : ∀ chunk ∈ responseChunks, chunk ≠ []) :
    (SameAsWhole (httpRequestParser C) (init (httpRequestParser C) requestContext request)
        requestChunks ∧
      SameAsWhole (httpResponseParser D) (init (httpResponseParser D) responseContext response)
        responseChunks) ↔
    (∀ earlier chunk, earlier ++ [chunk] <+: requestChunks →
      ¬HttpRequestParser.Silent C ((init (httpRequestParser C) requestContext request).receiveAll
        (httpRequestParser C) [earlier.flatten]) chunk) ∧
    ∀ earlier chunk, earlier ++ [chunk] <+: responseChunks →
      ¬HttpResponseParser.Silent D ((init (httpResponseParser D) responseContext
        response).receiveAll (httpResponseParser D) [earlier.flatten]) chunk :=
  and_congr
    (sameAsWhole_iff_silent (HttpRequestParser.regular C) (HttpRequestParser.silent_iff C) hrequest)
    (sameAsWhole_iff_silent (HttpResponseParser.regular D) (HttpResponseParser.silent_iff D) hresponse)

/-! ### Two examples -/

/-- The parser of requests that have no requirements. -/
abbrev requestParser : ParserClass RequestState RequestLine HttpRequest :=
  httpRequestParser httpRequestClass

abbrev responseParser : ParserClass ResponseState StatusLine HttpResponse :=
  httpResponseParser (httpResponseClass [])

def newRequest : HttpMessageParser RequestState RequestLine HttpRequest :=
  init requestParser { line := {} } { direction := .inbound }

def newResponse : HttpMessageParser ResponseState StatusLine HttpResponse :=
  init responseParser { line := {} } { direction := .inbound }

theorem newRequest_at (hbytes : bytes ≠ []) :
    At requestParser (newRequest.receiveAll requestParser [bytes])
      ((Scan.reading .receiveStart { line := {} } { direction := .inbound }).scan requestParser
        bytes) :=
  whole_at (regular _) _ _ hbytes

theorem newResponse_at (hbytes : bytes ≠ []) :
    At responseParser (newResponse.receiveAll responseParser [bytes])
      ((Scan.reading .receiveStart { line := {} } { direction := .inbound }).scan responseParser
        bytes) :=
  whole_at (HttpResponseParser.regular _) _ _ hbytes

theorem prefix_pair {earlier : List (List UInt8)} {first second : List UInt8}
    (h : earlier ++ [chunk] <+: [first, second]) :
    earlier = [] ∨ earlier = [first] ∧ chunk = second := by
  rcases earlier with _ | ⟨a, _ | ⟨b, rest⟩⟩
  · exact .inl rfl
  · simp only [singleton_append, cons_prefix_cons] at h
    exact .inr ⟨by rw [h.1], h.2.1⟩
  · have hlength := h.length_le
    simp at hlength

/-- A request is cut behind its first digit, a response behind the first digit of its code. -/
theorem split_independent_sample :
    SameAsWhole requestParser newRequest [ascii "GET / HTTP/1", ascii ".0\r\n\r\n"] ∧
      SameAsWhole responseParser newResponse [ascii "HTTP/1.1 2", ascii "00 OK\r\n\r\n"] := by
  refine (split_independent_iff httpRequestClass (httpResponseClass []) _ _ _ _ _ _
    (by decide) (by decide)).mpr ⟨?_, ?_⟩
  · intro earlier chunk h
    rcases prefix_pair h with rfl | ⟨rfl, rfl⟩
    · rw [silent_iff _ (by rintro rfl; simp [ascii] at h)]
      exact not_idle_empty
    have hne : [ascii "GET / HTTP/1"].flatten ≠ [] := by decide
    have hcurr := (newRequest_at hne).currState_reading rfl
    unfold HttpRequestParser.Silent
    rw [newRequest] at hcurr
    rw [hcurr]
    decide
  · intro earlier chunk h
    rcases prefix_pair h with rfl | ⟨rfl, rfl⟩
    · rw [HttpResponseParser.silent_iff _ (by rintro rfl; simp [ascii] at h)]
      exact not_idle_empty
    have hne : [ascii "HTTP/1.1 2"].flatten ≠ [] := by decide
    have hcurr := (newResponse_at hne).currState_reading rfl
    unfold HttpResponseParser.Silent
    rw [newResponse] at hcurr
    rw [hcurr]
    decide

/-- A parser that failed takes nothing more. -/
theorem receive_failed [DecidableEq σ] {p : HttpMessageParser σ κ μ} (h : p.phase = .failed) :
    p.receive P chunk = p := by
  have hneed : p.needData = false := by
    cases hneed : p.needData with
    | false => rfl
    | true => simp [phase, hneed] at h
  simp [receive, hneed]

/-- The same request fails when the major version comes in a chunk of its own. -/
theorem version_digit_lost :
    (newRequest.receiveAll requestParser
      [ascii "GET / HTTP/", ascii "1", ascii ".0\r\n\r\n"]).phase = .failed ∧
    (newRequest.receiveAll requestParser
      [[ascii "GET / HTTP/", ascii "1", ascii ".0\r\n\r\n"].flatten]).phase = .parseOk := by
  constructor
  · have hne : ascii "GET / HTTP/" ≠ [] := by decide
    have hat := newRequest_at hne
    have hcurr := hat.currState_reading rfl
    have hidle : Idle requestParser (newRequest.receiveAll requestParser [ascii "GET / HTTP/"])
        (ascii "1") := by
      rw [← silent_iff httpRequestClass (by decide)]
      unfold HttpRequestParser.Silent
      rw [hcurr]
      decide +kernel
    have hfailed := hat.receive_idles hcurr (by decide) (by decide)
      ((idle_iff hcurr (by decide)).mp hidle)
    show ((receive requestParser (receiveAll requestParser newRequest [ascii "GET / HTTP/"])
      (ascii "1")).receive requestParser _).phase = .failed
    rw [receive_failed hfailed]
    exact hfailed
  · have hne : [ascii "GET / HTTP/", ascii "1", ascii ".0\r\n\r\n"].flatten ≠ [] := by decide
    have houtcome := congrArg Prod.fst (newRequest_at hne).outcome_eq
    exact houtcome.trans (by decide +kernel)

end Chunks

end Http
