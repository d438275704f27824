/-
# Terminal requests on the control channel

The runner has one control connection to the guest. Callers hand their terminal requests to the
loop that owns it, which writes one request at a time and gives the next answer that comes in to
the caller that is waiting. Nothing in an answer says which request it is for.

A request that times out frees the place while its answer is still under way; the answer then
goes to the next caller.
-/
import Observatory.Lib.Bytes
import Observatory.Lib.Machine

namespace Observatory.Runner.Control

open Lib List

/-! ## Messages -/

/-- The terminal verbs. -/
inductive Verb where
  | create | close | list

/-- The kinds of what the guest sends. -/
inductive Kind where
  | terminalCreated | terminalClosed | terminalSessions | terminalError | error
  | pong | shutdownAck | other
deriving DecidableEq

/-- The kind of a successful answer. -/
def Verb.expected : Verb → Kind
  | create => .terminalCreated
  | close => .terminalClosed
  | list => .terminalSessions

/-- The loop gives the waiting caller what is of one of these kinds. -/
def Kind.answersTerminal : Kind → Bool
  | terminalCreated | terminalClosed | terminalSessions | terminalError | error => true
  | pong | shutdownAck | other => false

/-- A message of the guest. The wire carries the kind and the data; `answers` is the request it was
sent for. -/
structure Envelope where
  kind : Kind
  data : Bytes
  answers : Option Nat
deriving DecidableEq

/-- What the loop writes to the guest: its own messages, or the request of a call. -/
inductive Sent where
  | ping
  | shutdown
  | terminal (call : Nat)

def Sent.call : Sent → Option Nat
  | terminal call => some call
  | _ => none

/-- The guest answers each message in its kind; a guest that does not know the terminal verbs
answers with an error. -/
def Sent.answeredBy : Sent → Kind → Bool
  | ping, kind => kind = .pong
  | shutdown, kind => kind = .shutdownAck
  | terminal _, kind => kind.answersTerminal

/-! ## Calls -/

inductive Failure where
  | notAccepting
  | cancelled
  | writeFailed
  | timeout
  | channelClosed
  /-- The guest refused, or its answer is not of the kind or the form expected. -/
  | refused (env : Envelope)
deriving DecidableEq

/-- How far a call is. -/
inductive Stage where
  /-- It offers its request to the loop. -/
  | offering
  | waiting
  /-- The loop put this into its channel. -/
  | told (res : Except Failure Envelope)
  | returned (out : Except Failure Envelope)
deriving DecidableEq

/-- The answer of the guest that the call was given. -/
def Stage.answer : Stage → Option Envelope
  | .told (.ok env) | .returned (.ok env) => some env
  | _ => none

structure Call where
  verb : Verb
  payload : Bytes
  stage : Stage

/-- What the caller is told about its answer. -/
def Verb.outcome (decodes : Verb → Bytes → Bool) (verb : Verb) (env : Envelope) :
    Except Failure Envelope :=
  if env.kind ≠ verb.expected then .error (.refused env)
  else if !decodes verb env.data then .error (.refused env)
  else .ok env

/-! ## The loop -/

structure Channel where
  calls : List Call
  /-- The call that waits for the next answer. -/
  pending : Option Nat
  /-- What was written on this connection and the guest has not answered, oldest first. -/
  unanswered : List Sent
  /-- What the guest sent on it and the loop has not read. -/
  replies : List Envelope

namespace Channel

def idle : Channel := ⟨[], none, [], []⟩

inductive Action where
  | call (verb : Verb) (payload : Bytes)
  /-- The loop takes the request of a call and writes it. -/
  | accept (call : Nat)
  /-- The write fails: the connection is given up. -/
  | acceptFails (call : Nat)
  | ping
  | shutdown
  /-- The guest answers the oldest message it has not answered. -/
  | guestAnswers (kind : Kind) (data : Bytes)
  /-- The loop reads the next message of the guest. -/
  | read
  | timeout
  /-- The connection is lost, and another one takes its place. -/
  | redial
  /-- A caller gives up: before its request was taken, or while it waits. -/
  | giveUp (call : Nat) (why : Failure)
  /-- A caller takes what the loop told it. -/
  | receive (call : Nat)

def setStage (calls : List Call) (i : Nat) (stage : Stage) : List Call :=
  calls.modify i fun c => { c with stage }

/-- Put a result into the channel of a call; one whose caller has left is not read. -/
def tell (calls : List Call) (i : Nat) (res : Except Failure Envelope) : List Call :=
  calls.modify i fun c => if c.stage = .waiting then { c with stage := .told res } else c

/-- End the request that is waited for. -/
def finishTerm (s : Channel) (res : Except Failure Envelope) : Channel :=
  match s.pending with
  | none => s
  | some i => { s with calls := tell s.calls i res, pending := none }

/-- The connection is closed: whoever waits is told, and what was under way is gone. -/
def lost (s : Channel) : Channel :=
  { s.finishTerm (.error .channelClosed) with unanswered := [], replies := [] }

def stageOf (s : Channel) (i : Nat) : Option Stage := (s.calls[i]?).map Call.stage

def step (decodes : Verb → Bytes → Bool) (s : Channel) : Action → Option Channel
  | .call verb payload => some { s with calls := s.calls ++ [⟨verb, payload, .offering⟩] }
  | .accept i =>
    if s.pending = none ∧ s.stageOf i = some .offering then
      some { s with
        calls := setStage s.calls i .waiting
        pending := some i
        unanswered := s.unanswered ++ [.terminal i] }
    else none
  | .acceptFails i =>
    if s.pending = none ∧ s.stageOf i = some .offering then
      some { s with calls := setStage s.calls i (.told (.error .writeFailed)) }.lost
    else none
  | .ping => some { s with unanswered := s.unanswered ++ [.ping] }
  | .shutdown => some { s with unanswered := s.unanswered ++ [.shutdown] }
  | .guestAnswers kind data =>
    match s.unanswered with
    | [] => none
    | sent :: unanswered =>
      if sent.answeredBy kind then
        some { s with unanswered, replies := s.replies ++ [⟨kind, data, sent.call⟩] }
      else none
  | .read =>
    match s.replies with
    | [] => none
    | env :: replies =>
      if env.kind.answersTerminal then some ({ s with replies }.finishTerm (.ok env))
      else some { s with replies }
  | .timeout => if s.pending = none then none else some (s.finishTerm (.error .timeout))
  | .redial => some s.lost
  | .giveUp i why =>
    if s.stageOf i = some .offering ∨ s.stageOf i = some .waiting then
      some { s with calls := setStage s.calls i (.returned (.error why)) }
    else none
  | .receive i =>
    match s.calls[i]? with
    | some ⟨verb, _, .told res⟩ =>
      some { s with calls := setStage s.calls i (.returned (res.bind (verb.outcome decodes))) }
    | _ => none

/-- The calls whose answers are still to come on the connection. -/
def outstanding (s : Channel) : List Nat :=
  s.replies.filterMap Envelope.answers ++ s.unanswered.filterMap Sent.call

/-- No answer is still to come when a request is taken. -/
def settled (s : Channel) : Action → Bool
  | .accept _ => s.outstanding = []
  | _ => true

abbrev Settled (s : Channel) (a : Action) : Prop := s.settled a = true

/-! ## Answers and their requests -/

def Own (calls : List Call) : Prop :=
  ∀ (i : Nat) (c : Call) (env : Envelope),
    calls[i]? = some c → c.stage.answer = some env → env.answers = some i

lemma Own.modify {calls : List Call} (h : Own calls) {i : Nat} {f : Call → Call}
    (hf : ∀ c env, calls[i]? = some c → (f c).stage.answer = some env → env.answers = some i) :
    Own (calls.modify i f) := by
  intro j c env hget hanswer
  rw [List.getElem?_modify] at hget
  obtain ⟨c', hc', rfl⟩ := Option.map_eq_some_iff.1 hget
  by_cases hij : i = j
  · subst hij
    rw [if_pos rfl] at hanswer
    exact hf c' env hc' hanswer
  · rw [if_neg hij] at hanswer
    exact h j c' env hc' hanswer

lemma Own.setStage {calls : List Call} (h : Own calls) {i : Nat} {stage : Stage}
    (hstage : stage.answer = none) : Own (setStage calls i stage) := by
  refine h.modify fun c env _ hanswer => ?_
  rw [show stage.answer = some env from hanswer] at hstage
  exact nomatch hstage

lemma Own.tell {calls : List Call} (h : Own calls) {i : Nat} {res : Except Failure Envelope}
    (hres : ∀ env, res = .ok env → env.answers = some i) : Own (tell calls i res) := by
  refine h.modify fun c env hc hanswer => ?_
  split_ifs at hanswer with hwaiting
  · cases res with
    | error err => exact nomatch hanswer
    | ok env' =>
      obtain rfl : env' = env := Option.some.inj hanswer
      exact hres env' rfl
  · exact h i c env hc hanswer

/-- The answers still to come are for the call that waits, and no others than answers of the guest
to a request are given to it. -/
structure Inv (s : Channel) : Prop where
  own : Own s.calls
  outstanding : ∀ j, s.pending = some j → ∀ i ∈ s.outstanding, i = j
  replies : ∀ env ∈ s.replies, env.kind.answersTerminal = true → env.answers.isSome = true

namespace Inv

variable {s s' : Channel}

lemma finishTerm (h : Inv s) {res : Except Failure Envelope}
    (hres : ∀ j, s.pending = some j → ∀ env, res = .ok env → env.answers = some j) :
    Inv (s.finishTerm res) := by
  rw [Channel.finishTerm]
  cases hpending : s.pending with
  | none => exact h
  | some j => exact ⟨h.own.tell (hres j hpending), fun _ hj => (nomatch hj), h.replies⟩

lemma lost (h : Inv s) : Inv s.lost := by
  have hfinish : Inv (s.finishTerm (.error .channelClosed)) :=
    h.finishTerm fun _ _ _ heq => nomatch heq
  exact ⟨hfinish.own, fun _ _ i hi => (nomatch hi), fun env henv => (nomatch henv)⟩

lemma accept (h : Inv s) {i : Nat} (hsettled : s.Settled (.accept i)) :
    Inv { s with
      calls := setStage s.calls i .waiting
      pending := some i
      unanswered := s.unanswered ++ [.terminal i] } := by
  have hnone : s.outstanding = [] := of_decide_eq_true hsettled
  refine ⟨h.own.setStage rfl, fun j hj k hk => ?_, h.replies⟩
  obtain rfl : i = j := Option.some.inj hj
  obtain ⟨hreplies, hunanswered⟩ := append_eq_nil_iff.1 hnone
  simpa [Channel.outstanding, hreplies, hunanswered, Sent.call] using hk

lemma own_message (h : Inv s) {sent : Sent} (hcall : sent.call = none) :
    Inv { s with unanswered := s.unanswered ++ [sent] } := by
  refine ⟨h.own, fun j hj i hi => h.outstanding j hj i ?_, h.replies⟩
  simpa [Channel.outstanding, hcall] using hi

lemma guestAnswers (h : Inv s) {sent : Sent} {unanswered : List Sent} {kind : Kind} {data : Bytes}
    (hsent : s.unanswered = sent :: unanswered) (hkind : sent.answeredBy kind = true) :
    Inv { s with unanswered, replies := s.replies ++ [⟨kind, data, sent.call⟩] } := by
  refine ⟨h.own, fun j hj i hi => h.outstanding j hj i ?_, fun env henv hanswers => ?_⟩
  · -- the answer stands where its request stood
    simp only [Channel.outstanding, hsent, filterMap_append, filterMap_cons] at hi ⊢
    cases hcall : sent.call <;> simpa [hcall] using hi
  · rcases mem_append.1 henv with henv | henv
    · exact h.replies env henv hanswers
    · obtain rfl := mem_singleton.1 henv
      cases sent with
      | terminal call => rfl
      | ping =>
        obtain rfl : kind = .pong := of_decide_eq_true hkind
        exact nomatch hanswers
      | shutdown =>
        obtain rfl : kind = .shutdownAck := of_decide_eq_true hkind
        exact nomatch hanswers

lemma read (h : Inv s) {env : Envelope} {replies : List Envelope}
    (hreplies : s.replies = env :: replies) : Inv { s with replies } := by
  refine ⟨h.own, fun j hj i hi => h.outstanding j hj i ?_, fun e he => h.replies e ?_⟩
  · rw [Channel.outstanding, hreplies, filterMap_cons]
    cases hanswers : env.answers with
    | none => exact hi
    | some k => exact mem_cons_of_mem k hi
  · rw [hreplies]
    exact mem_cons_of_mem _ he

/-- Every step that takes a request only when none is still to be answered keeps the answers with
their calls. -/
lemma step {decodes : Verb → Bytes → Bool} (h : Inv s) {a : Action} (hsettled : s.Settled a)
    (hstep : s.step decodes a = some s') : Inv s' := by
  cases a with
  | call verb payload =>
    cases hstep
    refine ⟨fun i c env hget hanswer => ?_, h.outstanding, h.replies⟩
    rw [List.getElem?_append] at hget
    split_ifs at hget with hlt
    · exact h.own i c env hget hanswer
    · obtain rfl := mem_singleton.1 (mem_of_getElem? hget)
      exact nomatch hanswer
  | accept i =>
    simp only [Channel.step] at hstep
    split_ifs at hstep
    cases hstep
    exact h.accept hsettled
  | acceptFails i =>
    simp only [Channel.step] at hstep
    split_ifs at hstep
    cases hstep
    exact lost ⟨h.own.setStage rfl, h.outstanding, h.replies⟩
  | ping | shutdown =>
    cases hstep
    exact h.own_message rfl
  | guestAnswers kind data =>
    simp only [Channel.step] at hstep
    cases hsent : s.unanswered with
    | nil => simp [hsent] at hstep
    | cons sent unanswered =>
      simp only [hsent] at hstep
      split_ifs at hstep with hkind
      cases hstep
      exact h.guestAnswers hsent hkind
  | read =>
    simp only [Channel.step] at hstep
    cases hreplies : s.replies with
    | nil => simp [hreplies] at hstep
    | cons env replies =>
      simp only [hreplies] at hstep
      split_ifs at hstep with hkind
      · cases hstep
        refine (h.read hreplies).finishTerm fun j hj env' henv => ?_
        cases henv
        obtain ⟨i, hi⟩ := Option.isSome_iff_exists.1
          (h.replies env (by simp [hreplies]) hkind)
        have heq := h.outstanding j hj i (by simp [Channel.outstanding, hreplies, hi])
        rw [hi, heq]
      · cases hstep
        exact h.read hreplies
  | timeout =>
    simp only [Channel.step] at hstep
    split_ifs at hstep
    cases hstep
    exact h.finishTerm fun _ _ _ heq => nomatch heq
  | redial =>
    cases hstep
    exact h.lost
  | giveUp i why =>
    simp only [Channel.step] at hstep
    split_ifs at hstep
    cases hstep
    exact ⟨h.own.setStage rfl, h.outstanding, h.replies⟩
  | receive i =>
    simp only [Channel.step] at hstep
    split at hstep
    · rename_i verb payload res hget
      cases hstep
      refine ⟨h.own.modify fun c env hc hanswer => ?_, h.outstanding, h.replies⟩
      cases res with
      | error err => exact nomatch hanswer
      | ok env' =>
        have hown := h.own i _ env' hget rfl
        simp only [Except.bind, Verb.outcome] at hanswer
        split_ifs at hanswer
        · exact nomatch hanswer
        · exact nomatch hanswer
        · obtain rfl : env' = env := Option.some.inj hanswer
          exact hown
    · exact nomatch hstep

end Inv

/-- **Every caller gets the answer to its own request.**  Whatever the order of requests, answers,
timeouts and lost connections: as long as the loop takes a request only when no answer is still to
come, what a call returns as the guest's answer was sent for that call. -/
theorem answer_is_own {decodes : Verb → Bytes → Bool} {as : List Action} {s : Channel}
    (hsettled : Along (step decodes) Settled idle as) (hrun : run (step decodes) idle as = some s)
    {i : Nat} {env : Envelope} (hret : s.stageOf i = some (.returned (.ok env))) :
    env.answers = some i := by
  have hinit : Inv idle :=
    ⟨fun i c env hget => (nomatch hget), fun j hj => (nomatch hj), fun env henv => (nomatch henv)⟩
  have hinv : Inv s :=
    run_invariant (fun s a s' h hset hstep => h.step hset hstep) hinit hsettled hrun
  obtain ⟨c, hget, hstage⟩ := Option.map_eq_some_iff.1 hret
  exact hinv.own i c env hget (by rw [hstage]; rfl)

/-! ### Two callers -/

/-- The first caller gets its answer, a ping goes out, the second one's request times out. -/
def demoInTurn : List Action :=
  [.call .create [1], .accept 0, .call .list [], .guestAnswers .terminalCreated [7], .read,
    .receive 0, .ping, .accept 1, .guestAnswers .pong [], .read, .timeout, .receive 1]

theorem answer_is_own_demo : ∃ s,
    run (step fun _ _ => true) idle demoInTurn = some s ∧
      s.stageOf 0 = some (.returned (.ok ⟨.terminalCreated, [7], some 0⟩)) ∧
      (⟨.terminalCreated, [7], some 0⟩ : Envelope).answers = some 0 := by
  have hrun := yields (o := run (step fun _ _ => true) idle demoInTurn) (by decide)
  exact ⟨_, hrun, by decide, answer_is_own (by decide) hrun (by decide)⟩

/-- The first create times out; its answer comes while the second create waits. -/
def demoLate : List Action :=
  [.call .create [1], .call .create [2], .accept 0, .timeout, .receive 0, .accept 1,
    .guestAnswers .terminalCreated [7], .read, .receive 1]

/-- The second caller is given the session that was created for the first. -/
theorem answer_of_earlier_request : ∃ s,
    run (step fun _ _ => true) idle demoLate = some s ∧
      s.stageOf 1 = some (.returned (.ok ⟨.terminalCreated, [7], some 0⟩)) := by
  decide

end Channel

end Observatory.Runner.Control
