import KeaDhcp.Http.HttpMessage
import KeaDhcp.Infra.Loop
import KeaDhcp.Util.StateModel

/-!
# The HTTP message parser

`HttpMessageParserBase` of `src/lib/http/http_message_parser_base.cc`, and the handlers that
`HttpRequestParser` and `HttpResponseParser` have in common. The logic that a handler runs after it
has read a character changes the context and ends with a transition, with a parse failure, with an
exception, or with nothing of these (`After`).
-/

namespace Http

open Infra Util StateModel

inductive HttpEvent where
  | dataReadOk | needMoreData | moreDataProvided | httpParseOk | httpParseFailed
  deriving DecidableEq

/-- `HTTP_PARSE_OK_ST`, `HTTP_PARSE_FAILED_ST` and the states of the derived class. -/
inductive HttpState (σ : Type) where
  | parseOk | parseFailed | derived (state : σ)
  deriving DecidableEq

/-- The virtual functions of a message. -/
structure MessageClass (κ μ : Type) where
  create : μ → HttpContext κ → Except μ μ
  finalize : μ → HttpContext κ → Except μ μ
  requiresBody : μ → Bool
  /-- `getHeaderValueAsUint64("Content-Length")`, with `none` for its exceptions. -/
  contentLength : μ → Option Nat

/-- How the logic after a read ends. -/
inductive After (σ : Type) where
  | transition (state : σ) (event : HttpEvent)
  /-- The handler makes no transition. -/
  | nothing
  | parseFailure (errorMsg : ByteString)
  | throws
  deriving DecidableEq

/-- The logic that is run with the character that was read. -/
abbrev ReadLogic (σ κ μ : Type) :=
  HttpContext κ → μ → UInt8 → HttpContext κ × μ × After (HttpState σ)

/-- What a derived class adds: the logic of its states, and the state in which it starts. -/
structure ParserClass (σ κ μ : Type) where
  start : σ
  logic : σ → ReadLogic σ κ μ
  finalize : μ → HttpContext κ → Except μ μ

structure HttpMessageParser (σ κ μ : Type) where
  model : StateModel (HttpState σ) HttpEvent
  buffer : List UInt8
  bufferPos : Nat
  context : HttpContext κ
  message : μ

namespace HttpMessageParser

variable {σ κ μ : Type} [DecidableEq σ] {p' : HttpMessageParser σ κ μ} (P : ParserClass σ κ μ)
  (p : HttpMessageParser σ κ μ)

/-- The parser after `initModel`. -/
def init (context : HttpContext κ) (message : μ) : HttpMessageParser σ κ μ where
  model := ((fresh fun _ => .never).setState (.derived (.derived P.start))).postNextEvent
    .start
  buffer := []
  bufferPos := 0
  context := context
  message := message

def transition (p : HttpMessageParser σ κ μ) (state : ModelState (HttpState σ))
    (event : ModelEvent HttpEvent) : HttpMessageParser σ κ μ :=
  { p with model := p.model.transition state event }

@[simp] theorem nextEvent_transition (state : ModelState (HttpState σ))
    (event : ModelEvent HttpEvent) : (p.transition state event).model.nextEvent = event := rfl

@[simp] theorem currState_transition (state : ModelState (HttpState σ))
    (event : ModelEvent HttpEvent) : (p.transition state event).model.currState = state :=
  StateModel.currState_transition p.model state event

def abortModel (p : HttpMessageParser σ κ μ) : HttpMessageParser σ κ μ :=
  { p with model := p.model.abortModel }

def needData : Bool :=
  p.model.nextEvent = .derived .needMoreData ∨ p.model.nextEvent = .start

def httpParseOk (p : HttpMessageParser σ κ μ) : Bool :=
  p.model.nextEvent = .ended ∧ p.model.lastEvent = .derived .httpParseOk

def postBuffer (buf : List UInt8) : HttpMessageParser σ κ μ :=
  if buf = [] then p
  else
    let p :=
      if p.model.nextEvent = .derived .needMoreData then
        p.transition p.model.currState (.derived .moreDataProvided)
      else p
    { p with buffer := p.buffer ++ buf }

/-- `getNextFromBuffer`. The left value is the parser when it throws. -/
def getNextFromBuffer : Except (HttpMessageParser σ κ μ) (UInt8 × HttpMessageParser σ κ μ) :=
  if p.model.nextEvent = .derived .needMoreData then .error p
  else
    match p.buffer[p.bufferPos]? with
    | some c => .ok (c, { p with bufferPos := p.bufferPos + 1 })
    | none =>
      if p.model.nextEvent = .derived .moreDataProvided then .error p
      else .ok (0, p.transition p.model.currState (.derived .needMoreData))

def applyLogic (logic : ReadLogic σ κ μ) (c : UInt8) :
    Except (HttpMessageParser σ κ μ) (HttpMessageParser σ κ μ) :=
  match logic p.context p.message c with
  | (context, message, after) =>
    let p := { p with context := context, message := message }
    match after with
    | .transition state event => .ok (p.transition (.derived state) (.derived event))
    | .nothing => .ok p
    | .parseFailure _ => .ok (p.transition (.derived .parseFailed) (.derived .httpParseFailed))
    | .throws => .error p

/-- `stateWithReadHandler`, and `receiveStartHandler` with the event that it accepts. -/
def readHandler (accepted : List (ModelEvent HttpEvent)) (logic : ReadLogic σ κ μ)
    (p : HttpMessageParser σ κ μ) : Except (HttpMessageParser σ κ μ) (HttpMessageParser σ κ μ) := do
  let (c, p) ← p.getNextFromBuffer
  if p.model.nextEvent = .derived .needMoreData then return p
  else if p.model.nextEvent ∈ accepted then p.applyLogic logic c
  else .error p

def stateWithReadHandler (logic : ReadLogic σ κ μ) (p : HttpMessageParser σ κ μ) :
    Except (HttpMessageParser σ κ μ) (HttpMessageParser σ κ μ) :=
  p.readHandler [.derived .dataReadOk, .derived .moreDataProvided] logic

def parseEndedHandler : Except (HttpMessageParser σ κ μ) (HttpMessageParser σ κ μ) :=
  if p.model.nextEvent = .derived .httpParseOk then
    match P.finalize p.message p.context with
    | .ok message => .ok ({ p with message := message }.transition .ended .ended)
    | .error message => .error { p with message := message }
  else if p.model.nextEvent = .derived .httpParseFailed then .ok p.abortModel
  else .error p

/-- The handler of the current state. -/
def runState : Except (HttpMessageParser σ κ μ) (HttpMessageParser σ κ μ) :=
  match p.model.currState with
  | .new => .ok p
  | .ended => .ok p
  | .derived .parseOk => parseEndedHandler P p
  | .derived .parseFailed => parseEndedHandler P p
  | .derived (.derived state) =>
    if state = P.start then p.readHandler [.start] (P.logic state)
    else p.stateWithReadHandler (P.logic state)

/-- The loop of `poll` goes on. `NEW_ST` has been left by `initModel`. -/
def goesOn : Bool :=
  p.model.currState ≠ .new ∧ !p.model.isModelDone ∧ p.model.nextEvent ≠ .nop ∧
    p.model.nextEvent ≠ .derived .needMoreData

/-! ### The loop ends -/

/-- What a handler does to the parser when it does not throw. -/
inductive Round (p : HttpMessageParser σ κ μ) : HttpMessageParser σ κ μ → Prop
  | read {p' : HttpMessageParser σ κ μ} (hdata : p.bufferPos < p.buffer.length)
      (hbuffer : p'.buffer = p.buffer) (hpos : p'.bufferPos = p.bufferPos + 1) : Round p p'
  | noData (hevent : p.model.nextEvent ≠ .derived .needMoreData) :
      Round p (p.transition p.model.currState (.derived .needMoreData))
  | ended {p' : HttpMessageParser σ κ μ} {state : HttpState σ}
      (hstate : p.model.currState = .derived state) (hbuffer : p'.buffer = p.buffer)
      (hpos : p'.bufferPos = p.bufferPos) (hended : p'.model.currState = .ended)
      (hevent : p.model.nextEvent ≠ .derived .needMoreData) : Round p p'

variable {logic : ReadLogic σ κ μ}

theorem applyLogic_buffer {c : UInt8} {p : HttpMessageParser σ κ μ}
    (h : p.applyLogic logic c = .ok p') : p'.buffer = p.buffer ∧ p'.bufferPos = p.bufferPos := by
  unfold applyLogic at h
  dsimp only at h
  split at h <;> cases h <;> exact ⟨rfl, rfl⟩

theorem readHandler_round {accepted : List (ModelEvent HttpEvent)} {p : HttpMessageParser σ κ μ}
    (h : p.readHandler accepted logic = .ok p') : Round p p' := by
  obtain ⟨⟨c, p₁⟩, hnext, h⟩ := except_bind_eq_ok h
  unfold getNextFromBuffer at hnext
  split at hnext
  · cases hnext
  next hevent =>
    split at hnext
    · next c' hc =>
      cases hnext
      dsimp only at h
      rw [if_neg hevent] at h
      split at h
      · have hbuffer := applyLogic_buffer h
        exact .read (List.getElem?_eq_some_iff.mp hc).1 hbuffer.1 hbuffer.2
      · cases h
    · split at hnext
      · cases hnext
      cases hnext
      dsimp only at h
      cases h
      exact .noData hevent

theorem parseEndedHandler_round {P : ParserClass σ κ μ} {p : HttpMessageParser σ κ μ}
    {state : HttpState σ} (hstate : p.model.currState = .derived state)
    (h : parseEndedHandler P p = .ok p') : Round p p' := by
  unfold parseEndedHandler at h
  split at h
  · next hevent =>
    split at h
    · cases h
      exact .ended hstate rfl rfl rfl (by rw [hevent]; decide)
    · cases h
  · split at h
    · next hevent =>
      cases h
      exact .ended hstate rfl rfl rfl (by rw [hevent]; decide)
    · cases h

theorem runState_round {P : ParserClass σ κ μ} {p : HttpMessageParser σ κ μ}
    (hgoes : p.goesOn = true) (h : runState P p = .ok p') : Round p p' := by
  unfold runState at h
  split at h
  · next hstate => simp [goesOn, hstate] at hgoes
  · next hstate => simp [goesOn, isModelDone, hstate] at hgoes
  · next hstate => exact parseEndedHandler_round hstate h
  · next hstate => exact parseEndedHandler_round hstate h
  split at h
  all_goals exact readHandler_round h

/-- The characters that are left, then the state, then the event. -/
def measure : Nat :=
  4 * (p.buffer.length - p.bufferPos) + (if p.model.isModelDone then 0 else 1)
    + (if p.model.nextEvent = .derived .needMoreData then 0 else 1)

theorem Round.smaller {p : HttpMessageParser σ κ μ} (h : Round p p') : p'.measure < p.measure := by
  unfold measure
  cases h with
  | read hdata hbuffer hpos =>
    rw [hbuffer]
    split_ifs <;> omega
  | noData hevent =>
    have hdone : (p.transition p.model.currState (.derived .needMoreData)).model.isModelDone
        = p.model.isModelDone := by
      simp [isModelDone]
    rw [hdone, if_neg hevent]
    exact Nat.lt_succ_self _
  | ended hstate hbuffer hpos hended hevent =>
    have hdone : p.model.isModelDone = false := by simp [isModelDone, hstate]
    have hdone' : p'.model.isModelDone = true := by simp [isModelDone, hended]
    simp only [hbuffer, hdone, hdone', if_false, Bool.false_eq_true]
    split_ifs <;> omega

/-- The loop of `poll`. -/
def pollLoop : Loop (HttpMessageParser σ κ μ) (HttpMessageParser σ κ μ) Empty where
  cond := goesOn
  body := fun p => Sum.inl <$> runState P p
  measure := measure
  smaller := by
    intro p p' hgoes h
    cases hrun : runState P p with
    | error p₁ =>
      rw [hrun] at h
      cases h
    | ok p₁ =>
      rw [hrun] at h
      cases h
      exact (runState_round hgoes hrun).smaller

/-- `poll`; an exception aborts the model. -/
def poll : HttpMessageParser σ κ μ :=
  match runState P p >>= (pollLoop P).run with
  | .ok (.inl p) => p
  | .ok (.inr r) => r.elim
  | .error p => p.abortModel

/-- Data that have been received are posted and polled as long as the parser needs data. -/
def receive (chunk : List UInt8) : HttpMessageParser σ κ μ :=
  if p.needData then poll P (p.postBuffer chunk) else p

def receiveAll (chunks : List (List UInt8)) : HttpMessageParser σ κ μ :=
  chunks.foldl (receive P) p

end HttpMessageParser

/-! ## Characters -/

def isChar (c : UInt8) : Bool := c < 0x80

def isCtl (c : UInt8) : Bool := c ≤ 31 ∨ c = 127

def isSpecial (c : UInt8) : Bool := c ∈ ascii "()<>@,;:\\\"/[]?=\x7b\x7d \t"

def isdigit (c : UInt8) : Bool := IsDigit c

/-! ## The handlers of both parsers -/

section Handlers

variable {σ κ μ : Type} [DecidableEq σ]

/-- The states of the handlers that both parsers have. -/
structure HeaderStates (σ : Type) where
  headerLws : σ
  headerName : σ
  spaceBeforeHeaderValue : σ
  headerValue : σ
  expectingNewLine2 : σ
  expectingNewLine3 : σ
  body : σ

/-- A number in the context that a handler is given as a pointer. -/
structure Storage (κ : Type) where
  get : HttpContext κ → Nat
  set : HttpContext κ → Nat → HttpContext κ

def versionMajor : Storage κ where
  get context := context.httpVersionMajor
  set context value := { context with httpVersionMajor := value }

def versionMinor : Storage κ where
  get context := context.httpVersionMinor
  set context value := { context with httpVersionMinor := value }

/-- The number with one more digit, as an `unsigned int`. -/
def Storage.pushDigit (storage : Storage κ) (context : HttpContext κ) (c : UInt8) : HttpContext κ :=
  storage.set context ((storage.get context * 10 + (c.toNat - 0x30)) % 2 ^ 32)

def versionHTTPHandler (expectedLetter : UInt8) (nextState : σ) : ReadLogic σ κ μ :=
  fun context message c =>
    if c = expectedLetter then
      let context :=
        if c = 0x2f then { context with httpVersionMajor := 0, httpVersionMinor := 0 } else context
      (context, message, .transition (.derived nextState) .dataReadOk)
    else
      (context, message, .parseFailure
        (ascii "unexpected character " ++ [c] ++ ascii " in HTTP version string"))

def numberStartHandler (nextState : σ) (numberName : ByteString) (storage : Storage κ) :
    ReadLogic σ κ μ :=
  fun context message c =>
    if isdigit c then
      (storage.pushDigit context c, message, .transition (.derived nextState) .dataReadOk)
    else
      (context, message, .parseFailure
        (ascii "expected digit in " ++ numberName ++ ascii ", found " ++ [c]))

def numberHandler (followingCharacter : UInt8) (nextState : σ) (numberName : ByteString)
    (storage : Storage κ) : ReadLogic σ κ μ :=
  fun context message c =>
    if c = followingCharacter then
      (context, message, .transition (.derived nextState) .dataReadOk)
    else if isdigit c then (storage.pushDigit context c, message, .nothing)
    else
      (context, message, .parseFailure
        (ascii "expected digit in " ++ numberName ++ ascii ", found " ++ [c]))

def expectingNewLineHandler (C : MessageClass κ μ) (states : HeaderStates σ)
    (nextState : HttpState σ) : ReadLogic σ κ μ :=
  fun context message c =>
    if c = 0x0a then
      if nextState = .parseOk then
        match C.create message context with
        | .error message => (context, message, .throws)
        | .ok message =>
          match C.contentLength message with
          | some contentLength =>
            if contentLength > 0 then
              (context, message, .transition (.derived states.body) .dataReadOk)
            else (context, message, .nothing)
          | none =>
            if C.requiresBody message then
              (context, message, .parseFailure (ascii "HTTP message lacks a body"))
            else (context, message, .transition .parseOk .httpParseOk)
      else (context, message, .transition nextState .dataReadOk)
    else
      (context, message, .parseFailure (ascii "expecting new line after CR, found " ++ [c]))

/-- A change of the last header. -/
def updateBack (f : HttpHeaderContext → HttpHeaderContext) :
    List HttpHeaderContext → List HttpHeaderContext
  | [] => []
  | [header] => [f header]
  | header :: headers => header :: updateBack f headers

variable (context : HttpContext κ) (states : HeaderStates σ)

def pushName (c : UInt8) : HttpContext κ :=
  { context with headers := updateBack (fun h => { h with name := h.name ++ [c] }) context.headers }

def pushValue (c : UInt8) : HttpContext κ :=
  { context with
    headers := updateBack (fun h => { h with value := h.value ++ [c] }) context.headers }

/-- The name of the last header. -/
def backName : ByteString :=
  (context.headers.getLast?.map (·.name)).getD []

def headerLineStartHandler : ReadLogic σ κ μ :=
  fun context message c =>
    if c = 0x0d then
      (context, message, .transition (.derived states.expectingNewLine3) .dataReadOk)
    else if context.headers ≠ [] ∧ (c = 0x20 ∨ c = 0x09) then
      (context, message, .transition (.derived states.headerLws) .dataReadOk)
    else if !isChar c || isCtl c || isSpecial c then
      (context, message, .parseFailure
        (ascii "invalid character " ++ [c] ++ ascii " in header name"))
    else
      ({ context with headers := context.headers ++ [{ name := [c] }] }, message,
        .transition (.derived states.headerName) .dataReadOk)

/-- The end of the handlers for the value of a header. -/
def valueCharacter : ReadLogic σ κ μ :=
  fun context message c =>
    if isCtl c then
      (context, message, .parseFailure
        (ascii "control character found in the HTTP header " ++ backName context))
    else (pushValue context c, message, .transition (.derived states.headerValue) .dataReadOk)

def headerLwsHandler : ReadLogic σ κ μ :=
  fun context message c =>
    if c = 0x0d then
      (context, message, .transition (.derived states.expectingNewLine2) .dataReadOk)
    else if c = 0x20 ∨ c = 0x09 then
      (context, message, .transition (.derived states.headerLws) .dataReadOk)
    else valueCharacter states context message c

def headerNameHandler : ReadLogic σ κ μ :=
  fun context message c =>
    if c = 0x3a then
      (context, message, .transition (.derived states.spaceBeforeHeaderValue) .dataReadOk)
    else if !isChar c || isCtl c || isSpecial c then
      (context, message, .parseFailure
        (ascii "invalid character " ++ [c] ++ ascii " found in the HTTP header name"))
    else (pushName context c, message, .transition (.derived states.headerName) .dataReadOk)

def spaceBeforeHeaderValueHandler : ReadLogic σ κ μ :=
  fun context message c =>
    if c = 0x20 then
      (context, message, .transition (.derived states.spaceBeforeHeaderValue) .dataReadOk)
    else if c = 0x0d then
      (context, message, .transition (.derived states.expectingNewLine2) .dataReadOk)
    else valueCharacter states context message c

def headerValueHandler : ReadLogic σ κ μ :=
  fun context message c =>
    if c = 0x0d then
      (context, message, .transition (.derived states.expectingNewLine2) .dataReadOk)
    else valueCharacter states context message c

def bodyHandler (C : MessageClass κ μ) (states : HeaderStates σ) : ReadLogic σ κ μ :=
  fun context message c =>
    let context := { context with body := context.body ++ [c] }
    match C.contentLength message with
    | none => (context, message, .throws)
    | some contentLength =>
      if context.body.length < contentLength then
        (context, message, .transition (.derived states.body) .dataReadOk)
      else (context, message, .transition .parseOk .httpParseOk)

end Handlers

end Http
