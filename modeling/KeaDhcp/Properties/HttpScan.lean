import KeaDhcp.Http.MessageParser

/-!
# Messages that arrive in pieces

What the parser makes of a sequence of bytes is a fold over the bytes (`scanByte`). A parser to
which they are posted in chunks is where the fold is, unless the handlers make no transition for a
whole chunk after the first: then `MORE_DATA_PROVIDED_EVT` is still the event when the buffer is
empty, and the parser throws.
-/

namespace Http

open Infra Util List StateModel

variable {σ κ μ : Type}

/-- What can be asked of a parser between two chunks. -/
inductive Phase where
  | needsData | parseOk | failed
  deriving DecidableEq

namespace HttpMessageParser

def phase (p : HttpMessageParser σ κ μ) : Phase :=
  if p.needData then .needsData else if p.httpParseOk then .parseOk else .failed

/-- The state that a user sees, with what has been parsed. -/
def outcome (p : HttpMessageParser σ κ μ) : Phase × HttpContext κ × μ :=
  (p.phase, p.context, p.message)

end HttpMessageParser

/-! ## The fold over the bytes -/

/-- The parser waits for data in a state, or it has ended. -/
inductive Scan (σ κ μ : Type) where
  | reading (state : σ) (context : HttpContext κ) (message : μ)
  | ended (phase : Phase) (context : HttpContext κ) (message : μ)

variable {context : HttpContext κ} {P : ParserClass σ κ μ} {s : Scan σ κ μ} {c : UInt8}
  {message : μ} {state : σ} {bytes : List UInt8}

namespace Scan

def outcome : Scan σ κ μ → Phase × HttpContext κ × μ
  | .reading _ context message => (.needsData, context, message)
  | .ended phase context message => (phase, context, message)

/-- Where the logic of a handler leads to. -/
def after (P : ParserClass σ κ μ) (state : σ) (context : HttpContext κ) (message : μ) :
    After (HttpState σ) → Scan σ κ μ
  | .transition (.derived next) _ => .reading next context message
  | .transition .parseOk _ =>
    match P.finalize message context with
    | .ok message => .ended .parseOk context message
    | .error message => .ended .failed context message
  | .transition .parseFailed _ => .ended .failed context message
  | .nothing => .reading state context message
  | .parseFailure _ => .ended .failed context message
  | .throws => .ended .failed context message

def scanByte (P : ParserClass σ κ μ) : Scan σ κ μ → UInt8 → Scan σ κ μ
  | .reading state context message, c =>
    match P.logic state context message c with
    | (context, message, result) => after P state context message result
  | .ended phase context message, _ => .ended phase context message

def scan (P : ParserClass σ κ μ) (s : Scan σ κ μ) (bytes : List UInt8) : Scan σ κ μ :=
  bytes.foldl (scanByte P) s

@[simp] theorem scan_nil : s.scan P [] = s := rfl

@[simp] theorem scan_cons : s.scan P (c :: bytes) = (s.scanByte P c).scan P bytes := rfl

theorem scan_append {first second : List UInt8} :
    s.scan P (first ++ second) = (s.scan P first).scan P second :=
  foldl_append

@[simp] theorem scan_ended {phase : Phase} :
    (Scan.ended (σ := σ) phase context message).scan P bytes = .ended phase context message := by
  induction bytes with
  | nil => rfl
  | cons c bytes ih => exact ih

theorem scan_after_parseOk {event : HttpEvent} :
    (after P state context message (.transition .parseOk event)).scan P bytes
      = after P state context message (.transition .parseOk event) := by
  cases hfinal : P.finalize message context with
  | error message | ok message => simp [after, hfinal]

end Scan

/-- No handler makes a transition for any of the bytes. -/
def idles (P : ParserClass σ κ μ) (state : σ) : HttpContext κ → μ → List UInt8 → Bool
  | _, _, [] => true
  | context, message, c :: bytes =>
    match P.logic state context message c with
    | (context, message, .nothing) => idles P state context message bytes
    | _ => false

/-! ## Regular parsers -/

/--
What the logic of a state does in a parser that leaves its first state for good; `quiet` says
whether it may do nothing.
-/
inductive Allowed (start : σ) (quiet : Prop) : After (HttpState σ) → Prop
  | next {t : σ} (ht : t ≠ start) : Allowed start quiet (.transition (.derived t) .dataReadOk)
  | parseOk : Allowed start quiet (.transition .parseOk .httpParseOk)
  | nothing (hquiet : quiet) : Allowed start quiet .nothing
  | parseFailure (errorMsg : ByteString) : Allowed start quiet (.parseFailure errorMsg)
  | throws : Allowed start quiet .throws

theorem Allowed.mono {start : σ} {quiet quiet' : Prop} {result : After (HttpState σ)}
    (h : Allowed start quiet result) (himp : quiet → quiet') : Allowed start quiet' result := by
  cases h with
  | next ht => exact .next ht
  | parseOk => exact .parseOk
  | nothing hquiet => exact .nothing (himp hquiet)
  | parseFailure errorMsg => exact .parseFailure errorMsg
  | throws => exact .throws

def Regular (P : ParserClass σ κ μ) : Prop :=
  ∀ state context message c,
    Allowed P.start (state ≠ P.start) (P.logic state context message c).2.2

variable {chunk : List UInt8}

/-- A handler that always makes a transition is never idle. -/
theorem idles_eq_false
    (h : ∀ context message c, Allowed P.start False (P.logic state context message c).2.2)
    (hchunk : chunk ≠ []) : idles P state context message chunk = false := by
  cases chunk with
  | nil => exact absurd rfl hchunk
  | cons c chunk =>
    have hallowed := h context message c
    rcases hlogic : P.logic state context message c with ⟨context', message', result⟩
    rw [hlogic] at hallowed
    cases hallowed with
    | nothing hquiet => exact hquiet.elim
    | next | parseOk | parseFailure | throws => simp only [idles, hlogic]

namespace HttpMessageParser

variable {p : HttpMessageParser σ κ μ}

/-- The parser can run the handler of a state that reads. -/
structure Ready (P : ParserClass σ κ μ) (p : HttpMessageParser σ κ μ) (state : σ) : Prop where
  currState : p.model.currState = .derived (.derived state)
  event : state = P.start ∧ p.model.nextEvent = .start ∨
    state ≠ P.start ∧ (p.model.nextEvent = .derived .dataReadOk ∨
      p.model.nextEvent = .derived .moreDataProvided)

theorem Ready.noNeed (h : Ready P p state) : p.model.nextEvent ≠ .derived .needMoreData := by
  rcases h.event with ⟨-, hev⟩ | ⟨-, hev | hev⟩ <;> rw [hev] <;> decide

theorem Ready.goesOn [DecidableEq σ] (h : Ready P p state) : p.goesOn = true := by
  rcases h.event with ⟨-, hev⟩ | ⟨-, hev | hev⟩ <;>
    simp [HttpMessageParser.goesOn, isModelDone, h.currState, hev]

/-- The parser is where the fold over the bytes is, and can be given more data. -/
inductive At (P : ParserClass σ κ μ) (p : HttpMessageParser σ κ μ) : Scan σ κ μ → Prop
  | reading {state : σ} (hstate : p.model.currState = .derived (.derived state))
      (hevent : state = P.start ∧ p.model.nextEvent = .start ∨
        state ≠ P.start ∧ p.model.nextEvent = .derived .needMoreData)
      (hpos : p.bufferPos = p.buffer.length) : At P p (.reading state p.context p.message)
  | ended {phase : Phase} (hstate : p.model.currState = .ended) (hphase : p.phase = phase)
      (hneed : phase ≠ .needsData) : At P p (.ended phase p.context p.message)

theorem At.outcome_eq (h : At P p s) : p.outcome = s.outcome := by
  cases h with
  | reading hstate hevent hpos =>
    have hneed : p.needData = true := by
      rcases hevent with ⟨-, hev⟩ | ⟨-, hev⟩ <;> simp [needData, hev]
    simp [outcome, Scan.outcome, phase, hneed]
  | ended hstate hphase hneed => simp [outcome, Scan.outcome, hphase]

variable {read rest : List UInt8}

theorem getElem?_unread (hbuffer : p.buffer = read ++ c :: rest) (hpos : p.bufferPos = read.length) :
    p.buffer[p.bufferPos]? = some c := by
  rw [hbuffer, hpos]
  simp

variable [DecidableEq σ]

/-! ### One round -/

variable {p' : HttpMessageParser σ κ μ}

section

variable (hc : p.buffer[p.bufferPos]? = some c) (hneed : p.model.nextEvent ≠ .derived .needMoreData)

include hc hneed

theorem getNextFromBuffer_read :
    p.getNextFromBuffer = .ok (c, { p with bufferPos := p.bufferPos + 1 }) := by
  unfold getNextFromBuffer
  rw [if_neg hneed, hc]

theorem readHandler_read {accepted : List (ModelEvent HttpEvent)} {logic : ReadLogic σ κ μ}
    (haccepted : p.model.nextEvent ∈ accepted) :
    p.readHandler accepted logic
      = { p with bufferPos := p.bufferPos + 1 }.applyLogic logic c := by
  unfold readHandler
  rw [getNextFromBuffer_read hc hneed, except_ok_bind]
  dsimp only
  rw [if_neg hneed, if_pos haccepted]

end

/-- A byte that is there is read by the handler of the state. -/
theorem Ready.runState_read (h : Ready P p state) (hc : p.buffer[p.bufferPos]? = some c) :
    runState P p = { p with bufferPos := p.bufferPos + 1 }.applyLogic (P.logic state) c := by
  unfold runState
  rw [h.currState]
  dsimp only
  rcases h.event with ⟨hstate, hev⟩ | ⟨hstate, hev⟩
  · rw [if_pos hstate]
    exact readHandler_read hc h.noNeed (by simp [hev])
  · rw [if_neg hstate]
    exact readHandler_read hc h.noNeed (by simpa using hev)

/-- Without a byte the parser asks for more data. -/
theorem Ready.runState_noData (h : Ready P p state)
    (hevent : p.model.nextEvent ≠ .derived .moreDataProvided) (hc : p.buffer[p.bufferPos]? = none) :
    runState P p = .ok (p.transition p.model.currState (.derived .needMoreData)) := by
  have hnext : p.getNextFromBuffer
      = .ok (0, p.transition p.model.currState (.derived .needMoreData)) := by
    unfold getNextFromBuffer
    rw [if_neg h.noNeed, hc]
    rw [if_neg hevent]
  have hread : ∀ accepted (logic : ReadLogic σ κ μ), p.readHandler accepted logic
      = .ok (p.transition p.model.currState (.derived .needMoreData)) := by
    intro accepted logic
    unfold readHandler
    rw [hnext]
    dsimp only
    rfl
  unfold runState
  rw [h.currState] at hread ⊢
  dsimp only
  split
  · exact hread _ _
  · exact hread _ _

/-- It throws if more data has just been provided. -/
theorem Ready.runState_throws (h : Ready P p state)
    (hevent : p.model.nextEvent = .derived .moreDataProvided)
    (hc : p.buffer[p.bufferPos]? = none) : runState P p = .error p := by
  have hnext : p.getNextFromBuffer = .error p := by
    unfold getNextFromBuffer
    rw [if_neg h.noNeed, hc]
    rw [if_pos hevent]
  have hread : ∀ accepted (logic : ReadLogic σ κ μ), p.readHandler accepted logic = .error p := by
    intro accepted logic
    unfold readHandler
    rw [hnext]
    rfl
  unfold runState
  rw [h.currState]
  dsimp only
  split
  · exact hread _ _
  · exact hread _ _

/-! ### A run -/

/-- What `poll` makes of the end of its loop. -/
def finish : Except (HttpMessageParser σ κ μ) (HttpMessageParser σ κ μ ⊕ Empty) →
    HttpMessageParser σ κ μ
  | .ok (.inl p) => p
  | .ok (.inr r) => r.elim
  | .error p => p.abortModel

def settle (P : ParserClass σ κ μ) (p : HttpMessageParser σ κ μ) : HttpMessageParser σ κ μ :=
  finish ((pollLoop P).run p)

theorem settle_next (hgoes : p.goesOn = true) (hrun : runState P p = .ok p') :
    settle P p = settle P p' := by
  have hbody : (pollLoop P).body p = .ok (.inl p') := by
    show Sum.inl <$> runState P p = _
    rw [hrun]
    rfl
  unfold settle
  rw [Loop.run_next hgoes hbody]

theorem settle_throw (hgoes : p.goesOn = true) (hrun : runState P p = .error p') :
    settle P p = p'.abortModel := by
  have hbody : (pollLoop P).body p = .error p' := by
    show Sum.inl <$> runState P p = _
    rw [hrun]
    rfl
  unfold settle
  rw [Loop.run_throw hgoes hbody]
  rfl

theorem settle_exit (hgoes : p.goesOn = false) : settle P p = p := by
  unfold settle
  rw [Loop.run_exit (L := pollLoop P) hgoes]
  rfl

/-- `poll` runs the handler before it looks at the condition, which holds then. -/
theorem poll_eq_settle (hgoes : p.goesOn = true) : poll P p = settle P p := by
  have hpoll : poll P p = finish (runState P p >>= (pollLoop P).run) := by
    rfl
  rw [hpoll]
  cases hrun : runState P p with
  | error p' => rw [settle_throw hgoes hrun]; rfl
  | ok p' => rw [settle_next hgoes hrun]; rfl

theorem phase_abortModel : p.abortModel.phase = .failed := by
  simp [phase, needData, httpParseOk, abortModel, StateModel.abortModel]

theorem abortModel_at : At P p.abortModel (.ended .failed p.context p.message) :=
  .ended rfl phase_abortModel (by decide)

/-- The handler of `HTTP_PARSE_OK_ST`. -/
theorem settle_parseOk (hstate : p.model.currState = .derived .parseOk)
    (hevent : p.model.nextEvent = .derived .httpParseOk) :
    At P (settle P p) (Scan.after P state p.context p.message
      (.transition .parseOk .httpParseOk)) := by
  have hgoes : p.goesOn = true := by
    simp [goesOn, isModelDone, hstate, hevent]
  have hrun : runState P p = parseEndedHandler P p := by
    unfold runState
    rw [hstate]
  unfold parseEndedHandler at hrun
  rw [if_pos hevent] at hrun
  unfold Scan.after
  cases hfinal : P.finalize p.message p.context with
  | error message =>
    rw [hfinal] at hrun
    rw [settle_throw hgoes hrun]
    exact abortModel_at
  | ok message =>
    rw [hfinal] at hrun
    rw [settle_next hgoes hrun, settle_exit (by simp [goesOn, isModelDone])]
    refine .ended (currState_transition _ _ _) ?_ (by decide)
    have hlast : ({ p with message := message }.transition .ended .ended).model.lastEvent
        = p.model.nextEvent := nextEvent_setState p.model .ended
    simp [phase, needData, httpParseOk, hlast, hevent]

/-- The handler of `HTTP_PARSE_FAILED_ST`. -/
theorem settle_parseFailed (hstate : p.model.currState = .derived .parseFailed)
    (hevent : p.model.nextEvent = .derived .httpParseFailed) :
    At P (settle P p) (.ended .failed p.context p.message) := by
  have hgoes : p.goesOn = true := by
    simp [goesOn, isModelDone, hstate, hevent]
  have hrun : runState P p = .ok p.abortModel := by
    unfold runState
    rw [hstate]
    unfold parseEndedHandler
    rw [hevent]
    rfl
  rw [settle_next hgoes hrun,
    settle_exit (by simp [goesOn, abortModel, StateModel.abortModel, StateModel.isModelDone])]
  exact abortModel_at

theorem Ready.next {t : σ} (ht : t ≠ P.start)
    (hp' : p' = p.transition (.derived (.derived t)) (.derived .dataReadOk)) : Ready P p' t where
  currState := by rw [hp']; exact currState_transition _ _ _
  event := .inr ⟨ht, .inl (by rw [hp']; rfl)⟩

/-- The run follows the fold, if it does not end with the event of new data. -/
theorem Ready.settle_scan (hP : Regular P) (h : Ready P p state) (hbuffer : p.buffer = read ++ rest)
    (hpos : p.bufferPos = read.length) (hstart : state = P.start → rest ≠ [])
    (hidle : p.model.nextEvent ≠ .derived .moreDataProvided ∨ idles P state p.context p.message rest = false) :
    At P (settle P p) ((Scan.reading state p.context p.message).scan P rest) := by
  induction rest generalizing p state read with
  | nil =>
    have hstate : state ≠ P.start := fun heq => hstart heq rfl
    have hevent : p.model.nextEvent ≠ .derived .moreDataProvided := by
      rcases hidle with hevent | hidle
      · exact hevent
      · cases hidle
    have hnone : p.buffer[p.bufferPos]? = none := by
      rw [hbuffer, hpos]
      simp
    have hwaits : (p.transition p.model.currState (.derived .needMoreData)).goesOn = false := by
      simp [HttpMessageParser.goesOn]
    rw [settle_next h.goesOn (h.runState_noData hevent hnone), settle_exit hwaits]
    refine .reading ?_ (.inr ⟨hstate, rfl⟩) ?_
    · rw [currState_transition, h.currState]
    · show p.bufferPos = p.buffer.length
      rw [hbuffer, hpos, append_nil]
  | cons c rest ih =>
    have hrun := h.runState_read (getElem?_unread hbuffer hpos)
    have hread : p.buffer = (read ++ [c]) ++ rest := by rw [hbuffer]; simp
    have hmoved : p.bufferPos + 1 = (read ++ [c]).length := by rw [hpos]; simp
    rcases hlogic : P.logic state p.context p.message c with ⟨context, message, result⟩
    have hallowed : Allowed P.start (state ≠ P.start) result := by
      simpa only [hlogic] using hP state p.context p.message c
    have hscan : (Scan.reading state p.context p.message).scan P (c :: rest)
        = (Scan.after P state context message result).scan P rest := by
      simp only [Scan.scan_cons, Scan.scanByte, hlogic]
    simp only [applyLogic, hlogic] at hrun
    rw [hscan]
    cases hallowed with
    | next ht =>
      rw [settle_next h.goesOn hrun]
      exact ih (.next ht rfl) hread hmoved (fun heq => absurd heq ht) (.inl (by simp))
    | parseOk =>
      rw [settle_next h.goesOn hrun, Scan.scan_after_parseOk]
      exact settle_parseOk (currState_transition _ _ _) rfl
    | nothing hstate =>
      rw [settle_next h.goesOn hrun]
      refine ih ⟨h.currState, h.event⟩ hread hmoved (fun heq => absurd heq hstate) ?_
      simpa only [idles, hlogic] using hidle
    | parseFailure errorMsg =>
      rw [settle_next h.goesOn hrun, Scan.after, Scan.scan_ended]
      exact settle_parseFailed (currState_transition _ _ _) rfl
    | throws =>
      rw [settle_throw h.goesOn hrun, Scan.after, Scan.scan_ended]
      exact abortModel_at

/-- No transition for the whole chunk: the parser throws at its end. -/
theorem Ready.settle_idles (h : Ready P p state) (hbuffer : p.buffer = read ++ rest)
    (hpos : p.bufferPos = read.length) (hevent : p.model.nextEvent = .derived .moreDataProvided)
    (hidle : idles P state p.context p.message rest = true) : (settle P p).phase = .failed := by
  induction rest generalizing p read with
  | nil =>
    have hnone : p.buffer[p.bufferPos]? = none := by
      rw [hbuffer, hpos]
      simp
    rw [settle_throw h.goesOn (h.runState_throws hevent hnone)]
    exact phase_abortModel
  | cons c rest ih =>
    have hrun := h.runState_read (getElem?_unread hbuffer hpos)
    rcases hlogic : P.logic state p.context p.message c with ⟨context, message, result⟩
    simp only [applyLogic, hlogic] at hrun
    simp only [idles, hlogic] at hidle
    cases result with
    | nothing =>
      have hmoved : p.bufferPos + 1 = (read ++ [c]).length := by simp [hpos]
      rw [settle_next h.goesOn hrun]
      exact ih ⟨h.currState, h.event⟩ (by rw [hbuffer]; simp) hmoved hevent hidle
    | transition | parseFailure | throws => cases hidle

/-! ### A chunk -/

/-- The parser with a chunk, which it has asked for. -/
def fed (p : HttpMessageParser σ κ μ) (chunk : List UInt8) : HttpMessageParser σ κ μ :=
  { p.transition p.model.currState (.derived .moreDataProvided) with buffer := p.buffer ++ chunk }

theorem receive_fed (hchunk : chunk ≠ []) (hevent : p.model.nextEvent = .derived .needMoreData) :
    receive P p chunk = poll P (p.fed chunk) := by
  have hneed : p.needData = true := by simp [needData, hevent]
  simp only [receive, postBuffer, if_neg hchunk, if_pos hevent, if_pos hneed]
  rfl

theorem receive_start (hchunk : chunk ≠ []) (hevent : p.model.nextEvent = .start) :
    receive P p chunk = poll P { p with buffer := p.buffer ++ chunk } := by
  have hneed : p.needData = true := by simp [needData, hevent]
  have hmore : p.model.nextEvent ≠ .derived .needMoreData := by rw [hevent]; decide
  simp only [receive, postBuffer, if_neg hchunk, if_neg hmore, if_pos hneed]

theorem fed_ready (hstate : p.model.currState = .derived (.derived state))
    (hne : state ≠ P.start) (chunk : List UInt8) : Ready P (p.fed chunk) state where
  currState := by
    rw [← hstate]
    exact currState_transition _ _ _
  event := .inr ⟨hne, .inr rfl⟩

/-- A chunk moves the parser as it moves the fold. -/
theorem At.receive (hP : Regular P) (h : At P p s) (hchunk : chunk ≠ [])
    (hidle : ∀ state, p.model.currState = .derived (.derived state) → state ≠ P.start →
      idles P state p.context p.message chunk = false) :
    At P (p.receive P chunk) (s.scan P chunk) := by
  cases h with
  | reading hstate hevent hpos =>
    rcases hevent with ⟨hstart, hevent⟩ | ⟨hne, hevent⟩
    · have hready : Ready P { p with buffer := p.buffer ++ chunk } _ :=
        ⟨hstate, .inl ⟨hstart, hevent⟩⟩
      rw [receive_start hchunk hevent, poll_eq_settle hready.goesOn]
      exact hready.settle_scan hP rfl hpos (fun _ => hchunk) (.inl (by simp [hevent]))
    · have hready := fed_ready hstate hne chunk
      rw [receive_fed hchunk hevent, poll_eq_settle hready.goesOn]
      exact hready.settle_scan hP rfl hpos (fun heq => absurd heq hne)
        (.inr (hidle _ hstate hne))
  | ended hstate hphase hneed =>
    have hdata : p.needData = false := by
      cases hdata : p.needData with
      | false => rfl
      | true => simp [phase, hdata] at hphase; exact absurd hphase.symm hneed
    rw [Scan.scan_ended]
    unfold HttpMessageParser.receive
    rw [hdata]
    exact .ended hstate hphase hneed

/-- A chunk without a transition fails. -/
theorem At.receive_idles (h : At P p s) (hstate : p.model.currState = .derived (.derived state))
    (hne : state ≠ P.start) (hchunk : chunk ≠ [])
    (hidle : idles P state p.context p.message chunk = true) :
    (p.receive P chunk).phase = .failed := by
  cases h with
  | reading hstate' hevent hpos =>
    rw [hstate] at hstate'
    cases hstate'
    rcases hevent with ⟨hstart, -⟩ | ⟨-, hevent⟩
    · exact absurd hstart hne
    have hready := fed_ready hstate hne chunk
    rw [receive_fed hchunk hevent, poll_eq_settle hready.goesOn]
    exact hready.settle_idles rfl hpos rfl hidle
  | ended hended hphase hneed =>
    rw [hstate] at hended
    cases hended

end HttpMessageParser

/-! ## Chunks after chunks -/

namespace HttpMessageParser

/-- No handler makes a transition for any byte of the chunk. -/
def Idle (P : ParserClass σ κ μ) (p : HttpMessageParser σ κ μ) (chunk : List UInt8) : Prop :=
  ∃ state, p.model.currState = .derived (.derived state) ∧ state ≠ P.start ∧
    idles P state p.context p.message chunk = true

variable {p : HttpMessageParser σ κ μ}

theorem idle_iff (hcurr : p.model.currState = .derived (.derived state)) (hstate : state ≠ P.start) :
    Idle P p chunk ↔ idles P state p.context p.message chunk = true := by
  constructor
  · rintro ⟨state', hcurr', -, hidle⟩
    rw [hcurr] at hcurr'
    cases hcurr'
    exact hidle
  · intro hidle
    exact ⟨state, hcurr, hstate, hidle⟩

theorem not_idle {quiet : σ → Prop}
    (hallowed : ∀ state context message c, Allowed P.start (quiet state) (P.logic state context message c).2.2)
    (hchunk : chunk ≠ [])
    (hloud : ∀ state, p.model.currState = .derived (.derived state) → ¬quiet state) :
    ¬Idle P p chunk := by
  rintro ⟨state, hcurr, -, hidle⟩
  have hfalse := fun context message c =>
    (hallowed state context message c).mono (hloud state hcurr)
  rw [idles_eq_false hfalse hchunk] at hidle
  cases hidle

theorem At.scan_eq (h : At P p s) (hcurr : p.model.currState = .derived (.derived state)) :
    Scan.reading state p.context p.message = s := by
  cases h with
  | reading hstate =>
    rw [hcurr] at hstate
    cases hstate
    rfl
  | ended hended =>
    rw [hcurr] at hended
    cases hended

theorem At.currState_reading (h : At P p s) (hs : s = .reading state context message) :
    p.model.currState = .derived (.derived state) := by
  cases h with
  | reading hstate =>
    cases hs
    exact hstate
  | ended => cases hs

theorem At.idle_congr {q : HttpMessageParser σ κ μ} (hp : At P p s) (hq : At P q s) :
    Idle P p chunk → Idle P q chunk := by
  rintro ⟨state, hcurr, hne, hidle⟩
  have hs := hp.scan_eq hcurr
  have hstate := hq.currState_reading hs.symm
  injection (hq.scan_eq hstate).trans hs.symm with _ hcontext hmessage
  exact ⟨state, hstate, hne, by rw [hcontext, hmessage]; exact hidle⟩

/-- The bytes at once would have been fine. -/
theorem scan_idles (hidle : idles P state context message chunk = true) :
    ((Scan.reading state context message).scan P chunk).outcome.1 = .needsData := by
  induction chunk generalizing context message with
  | nil => rfl
  | cons c chunk ih =>
    rcases hlogic : P.logic state context message c with ⟨context', message', result⟩
    simp only [idles, hlogic] at hidle
    cases result with
    | nothing =>
      simp only [Scan.scan_cons, Scan.scanByte, hlogic]
      exact ih hidle
    | transition | parseFailure | throws => cases hidle

variable [DecidableEq σ]

theorem init_at : At P (init P context message) (.reading P.start context message) :=
  .reading (currState_setState _ _) (.inl ⟨rfl, rfl⟩) rfl

theorem init_not_start (h : (init P context message).model.currState = .derived (.derived state)) :
    state = P.start := by
  have hcurr : (init P context message).model.currState = .derived (.derived P.start) :=
    currState_setState _ _
  cases h
  rfl

/-- A parser that gets all bytes at once is where the fold is. -/
theorem whole_at (hP : Regular P) (context : HttpContext κ) (message : μ) (hbytes : bytes ≠ []) :
    At P ((init P context message).receiveAll P [bytes])
      ((Scan.reading P.start context message).scan P bytes) :=
  (init_at).receive hP hbytes fun _ hcurr hne =>
    absurd (init_not_start hcurr) hne

theorem receiveAll_empty :
    (init P context message).receiveAll P [[]] = (init P context message).transition
      (init P context message).model.currState (.derived .needMoreData) := by
  have hready : Ready P (init P context message) P.start :=
    ⟨currState_setState _ _, .inl ⟨rfl, rfl⟩⟩
  have hrun := hready.runState_noData (by simp [init, postNextEvent]) rfl
  have hwaits : ((init P context message).transition (init P context message).model.currState
      (.derived .needMoreData)).goesOn = false := by
    simp [goesOn]
  show poll P (init P context message) = _
  rw [poll_eq_settle hready.goesOn, settle_next hready.goesOn hrun, settle_exit hwaits]

theorem not_idle_empty : ¬Idle P ((init P context message).receiveAll P [[]]) chunk := by
  rintro ⟨state, hcurr, hne, -⟩
  rw [receiveAll_empty, currState_transition] at hcurr
  exact hne (init_not_start hcurr)

variable {chunks : List (List UInt8)}

theorem receiveAll_concat :
    p.receiveAll P (chunks ++ [chunk]) = (p.receiveAll P chunks).receive P chunk :=
  foldl_concat ..

theorem flatten_ne_nil (hne : chunks ≠ []) (hchunks : ∀ chunk ∈ chunks, chunk ≠ []) :
    chunks.flatten ≠ [] := by
  cases chunks with
  | nil => exact absurd rfl hne
  | cons chunk chunks => simp [hchunks chunk]

/-- A parser to which chunks are posted is where the fold is, if none of them is idle. -/
theorem receiveAll_at (hP : Regular P) (hchunks : ∀ chunk ∈ chunks, chunk ≠ [])
    (hloud : ∀ earlier chunk, earlier ++ [chunk] <+: chunks →
      ¬Idle P ((init P context message).receiveAll P [earlier.flatten]) chunk) :
    At P ((init P context message).receiveAll P chunks)
      ((Scan.reading P.start context message).scan P chunks.flatten) := by
  induction chunks using reverseRecOn with
  | nil => exact init_at
  | append_singleton earlier chunk ih =>
    have hearlier : ∀ chunk ∈ earlier, chunk ≠ [] := fun chunk hmem =>
      hchunks chunk (mem_append_left _ hmem)
    have hat := ih hearlier fun earlier' chunk' hpart =>
      hloud earlier' chunk' (hpart.trans (prefix_append _ _))
    rw [receiveAll_concat, flatten_concat, Scan.scan_append]
    refine hat.receive hP (hchunks chunk (by simp)) ?_
    intro state hcurr hne
    by_cases hempty : earlier = []
    · subst hempty
      exact absurd (init_not_start hcurr) hne
    have hwhole := whole_at hP context message (flatten_ne_nil hempty hearlier)
    by_contra hidle
    exact hloud earlier chunk (prefix_refl _)
      (hat.idle_congr hwhole ⟨state, hcurr, hne, by simpa using hidle⟩)

/-- A chunk that is idle makes the parser fail, while the whole still needs data. -/
theorem outcome_ne_of_idle (hP : Regular P) {earlier : List (List UInt8)} (hempty : earlier ≠ [])
    (hearlier : ∀ chunk ∈ earlier, chunk ≠ []) (hchunk : chunk ≠ [])
    (hat : At P ((init P context message).receiveAll P earlier)
      ((Scan.reading P.start context message).scan P earlier.flatten))
    (hidle : Idle P ((init P context message).receiveAll P [earlier.flatten]) chunk) :
    ((init P context message).receiveAll P (earlier ++ [chunk])).outcome
      ≠ ((init P context message).receiveAll P [(earlier ++ [chunk]).flatten]).outcome := by
  intro hboth
  have hwhole := whole_at hP context message (flatten_ne_nil hempty hearlier)
  obtain ⟨state, hcurr, hne, hidles⟩ := hwhole.idle_congr hat hidle
  have hfailed := hat.receive_idles hcurr hne hchunk hidles
  have hneeds := scan_idles hidles
  have hend : (earlier ++ [chunk]).flatten ≠ [] := by simp [hchunk]
  rw [receiveAll_concat, (whole_at hP context message hend).outcome_eq,
    flatten_concat, Scan.scan_append] at hboth
  rw [hat.scan_eq hcurr, ← hboth] at hneeds
  exact absurd (hfailed.symm.trans hneeds) (by decide)

/--
The parser is after each chunk where it would be if the bytes had come at once, exactly if no chunk
is idle.
-/
theorem sameAsWhole_iff (hP : Regular P) (hchunks : ∀ chunk ∈ chunks, chunk ≠ []) :
    (∀ received, received <+: chunks → ((init P context message).receiveAll P received).outcome
        = ((init P context message).receiveAll P [received.flatten]).outcome) ↔
    ∀ earlier chunk, earlier ++ [chunk] <+: chunks →
      ¬Idle P ((init P context message).receiveAll P [earlier.flatten]) chunk := by
  constructor
  · -- Up to the first idle chunk the parser follows the fold, so that it is seen there.
    intro hsame
    have hpart : ∀ received, received <+: chunks → ∀ earlier chunk,
        earlier ++ [chunk] <+: received →
        ¬Idle P ((init P context message).receiveAll P [earlier.flatten]) chunk := by
      intro received
      induction received using reverseRecOn with
      | nil =>
        intro _ earlier chunk h
        exact absurd (prefix_nil.mp h) (by simp)
      | append_singleton received last ih =>
        intro hreceived earlier chunk h
        have hshorter := (prefix_append received [last]).trans hreceived
        rcases prefix_concat_iff.mp h with heq | h
        · obtain ⟨rfl, hlast⟩ := append_inj' heq rfl
          obtain rfl : chunk = last := by simpa using hlast
          intro hidle
          by_cases hempty : earlier = []
          · subst hempty
            exact not_idle_empty hidle
          have hearlier : ∀ chunk ∈ earlier, chunk ≠ [] := fun chunk hmem =>
            hchunks chunk (hshorter.subset hmem)
          have hat := receiveAll_at hP hearlier (ih hshorter)
          exact outcome_ne_of_idle hP hempty hearlier
            (hchunks chunk (hreceived.subset (by simp))) hat hidle (hsame _ hreceived)
        · exact ih hshorter earlier chunk h
    exact hpart chunks (prefix_refl _)
  · intro hloud received hreceived
    by_cases hempty : received = []
    · subst hempty
      rw [flatten_nil, receiveAll_empty]
      rfl
    have hchunks' : ∀ chunk ∈ received, chunk ≠ [] := fun chunk hmem =>
      hchunks chunk (hreceived.subset hmem)
    have hat := receiveAll_at hP hchunks' fun earlier chunk h =>
      hloud earlier chunk (h.trans hreceived)
    rw [hat.outcome_eq, (whole_at hP context message (flatten_ne_nil hempty hchunks')).outcome_eq]

end HttpMessageParser

end Http
