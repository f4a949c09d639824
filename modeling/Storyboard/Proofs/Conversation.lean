import Storyboard.Proofs.Trimming
import Storyboard.Session

/-!
# What an application is told

An application may send a session anything. A message that asks for a diagram is
answered by one notice: that the diagram was drawn, or what went wrong. Nothing
else is answered, and for nothing else is a painter asked for. A painter that
fails, a supply that refuses one, or a text that is no text leaves no trace in
the session, so that each message is handled as if it were the first.

The supply of painters need not be steady: in a conversation, the requests for
a painter get the answers of any sequence. Only if these are all the same is
every message handled as by a new session with the same supply.

## Main results

* `Value.AsksFor`, `Session.attempt` — the messages that ask for a diagram, and
  what comes of asking.
* `Failure.describe_nonBlank` — a failure is never described by blanks.
* `Session.generate_told`, `Session.generate_eq` — what is told, and how often a
  painter is asked for.
* `Exchange.Sound`, `Session.handle_sound` — what is asked of one message and
  its reply, and that it holds.
* `Session.conversation_sound` — every conversation.
-/

namespace Storyboard

/-- Whether a message asks for a diagram of `text`: it is an object with the
command to generate one. A text that is left out is the null value. -/
def Value.AsksFor (message text : Value) : Prop :=
  ∃ fields, message = .object fields ∧ fields.lookup "command" = some (.text "generate") ∧
    text = (fields.lookup "text").getD .null

/-- Whether a text has more than blanks. -/
def Text.NonBlank (s : String) : Prop := ∃ c ∈ s.toList, isBlank c = false

/-- A failure without a wording, or with one of blanks, is described too. -/
theorem Failure.describe_nonBlank (f : Failure) : Text.NonBlank f.describe := by
  unfold describe
  dsimp only
  split
  · exact ⟨'U', by decide, by decide⟩
  · rename_i hne
    have hchars : Text.trim f.message.toList ≠ [] := by
      intro hnil
      rw [← Text.toList_strip, String.toList_eq_nil_iff] at hnil
      exact hne hnil
    refine ⟨_, ?_, Text.head_trim _ (List.head?_eq_some_head hchars)⟩
    rw [Text.toList_strip]
    exact List.head_mem hchars

namespace Session

variable {σ η α : Type}

/-! ## Messages that ask for a diagram -/

/-- What comes of asking for the diagram of a text: the text is read, a painter
is supplied and the flow is rendered, unless something goes wrong before. -/
def attempt (supply : Except Failure (Workplace σ η α)) (text : Value) :
    Except Failure (Summary α) := do
  let flow ← text.flow.mapError .plain
  let place ← supply
  (place.painter.render flow place.state).outcome.mapError .render

/-- What is told about an attempt. -/
def told : Except Failure (Summary α) → Except Fault (Option (Summary α)) × List Notice
  | .ok summary => (.ok (some summary), [successNotice])
  | .error failure => (.ok none, [errorNotice failure])

theorem generate_told (s : Session σ η α) (text : Value) :
    ((s.generate text).1.result, (s.generate text).1.notices) = told (attempt s.supply text) := by
  unfold generate attempt
  cases text.flow with
  | error fault => rfl
  | ok flow =>
      cases s.supply with
      | error failure => rfl
      | ok place =>
          dsimp only [Except.mapError, bind, Except.bind]
          cases (place.painter.render flow place.state).outcome with
          | error fault => rfl
          | ok summary => rfl

/-- A painter is asked for once the text has been read. How often that was done
before has no part in the reply. -/
theorem generate_eq (s : Session σ η α) (text : Value) :
    s.generate text = (((⟨s.supply, 0⟩ : Session σ η α).generate text).1,
      { s with asked := s.asked + if text.flow.isOk then 1 else 0 }) := by
  unfold generate
  cases text.flow with
  | error fault => rfl
  | ok flow =>
      dsimp only
      split
      · rfl
      · split <;> rfl

/-- What is told about an attempt is one notice. It is the notice of a diagram
drawn exactly if there is a diagram; otherwise it describes what went wrong. -/
theorem exists_notice_of_told {outcome : Except Failure (Summary α)}
    {result : Except Fault (Option (Summary α))} {notices : List Notice}
    (h : (result, notices) = told outcome) :
    ∃ notice, notices = [notice] ∧
      ((∃ summary, result = .ok (some summary)) ↔ notice = successNotice) ∧
      (notice ≠ successNotice → result = .ok none ∧ notice.isError = true ∧
        ∃ description, notice.message = "Error generating screen flow: " ++ description ∧
          Text.NonBlank description) := by
  cases outcome with
  | ok summary =>
      cases h
      exact ⟨successNotice, rfl, ⟨fun _ => rfl, fun _ => ⟨summary, rfl⟩⟩, fun hne => absurd rfl hne⟩
  | error failure =>
      cases h
      refine ⟨errorNotice failure, rfl, ⟨?_, ?_⟩, fun _ => ⟨rfl, rfl, failure.describe, rfl,
        failure.describe_nonBlank⟩⟩
      · rintro ⟨summary, hsummary⟩
        cases hsummary
      · intro hsame
        cases congrArg Notice.isError hsame

/-- There is a diagram exactly if the attempt made one. -/
theorem result_eq_ok_some_iff {outcome : Except Failure (Summary α)}
    {result : Except Fault (Option (Summary α))} {notices : List Notice}
    (h : (result, notices) = told outcome) (summary : Summary α) :
    result = .ok (some summary) ↔ outcome = .ok summary := by
  cases outcome with
  | ok other =>
      cases h
      simp
  | error failure =>
      cases h
      simp

/-! ## Telling messages apart -/

theorem isText_generateCommand {fields : List (String × Value)} :
    ((fields.lookup "command").getD .null).isText generateCommand = true ↔
      fields.lookup "command" = some (.text "generate") := by
  cases fields.lookup "command" with
  | none => simp [Value.isText]
  | some v => cases v <;> simp [Value.isText, generateCommand]

private theorem handle_of_asksFor (s : Session σ η α) {message text : Value}
    (h : message.AsksFor text) : s.handle message = s.generate text := by
  obtain ⟨fields, rfl, hcommand, rfl⟩ := h
  rw [handle, if_pos (isText_generateCommand.2 hcommand)]

/-- A message that does not ask for a diagram is passed over. -/
theorem handle_of_not_asksFor (s : Session σ η α) {message : Value}
    (h : ∀ text, ¬message.AsksFor text) :
    (s.handle message).1.notices = [] ∧ (s.handle message).2 = s ∧
      ∀ summary, (s.handle message).1.result ≠ .ok (some summary) := by
  cases message with
  | object fields =>
      have hcommand : ¬((fields.lookup "command").getD .null).isText generateCommand = true :=
        fun hgenerate => h _ ⟨fields, rfl, isText_generateCommand.1 hgenerate, rfl⟩
      rw [handle, if_neg hcommand]
      exact ⟨rfl, rfl, fun _ => nofun⟩
  | null => exact ⟨rfl, rfl, fun _ => nofun⟩
  | bool b => exact ⟨rfl, rfl, fun _ => nofun⟩
  | integer n => exact ⟨rfl, rfl, fun _ => nofun⟩
  | real x => exact ⟨rfl, rfl, fun _ => nofun⟩
  | text t => exact ⟨rfl, rfl, fun _ => nofun⟩
  | list vs => exact ⟨rfl, rfl, fun _ => nofun⟩

end Session

/-! ## Exchanges -/

/-- A message with its reply, and how often a painter had been asked for before
and after it. -/
structure Exchange (σ α : Type) where
  message : Value
  before : Nat
  reply : Reply σ α
  after : Nat

/-- What is asked of an exchange while the supply gives this answer. -/
structure Exchange.Sound {σ η α : Type} (supply : Except Failure (Workplace σ η α))
    (e : Exchange σ α) : Prop where
  /-- Other messages than those that ask for a diagram are passed over. -/
  other : (∀ text, ¬e.message.AsksFor text) →
    e.reply.notices = [] ∧ e.after = e.before ∧
      ∀ summary, e.reply.result ≠ .ok (some summary)
  /-- A message that asks for one is answered by one notice, which tells whether
  there is a diagram. -/
  notice : ∀ text, e.message.AsksFor text → ∃ notice, e.reply.notices = [notice] ∧
    ((∃ summary, e.reply.result = .ok (some summary)) ↔ notice = Session.successNotice) ∧
    (notice ≠ Session.successNotice → e.reply.result = .ok none ∧ notice.isError = true ∧
      ∃ description, notice.message = "Error generating screen flow: " ++ description ∧
        Text.NonBlank description)
  /-- There is one if the text can be read, a painter is supplied and the
  rendering succeeds. -/
  summary : ∀ text, e.message.AsksFor text → ∀ summary,
    e.reply.result = .ok (some summary) ↔ Session.attempt supply text = .ok summary
  /-- A painter is asked for once, if the text can be read. -/
  asked : ∀ text, e.message.AsksFor text → e.after = e.before + if text.flow.isOk then 1 else 0
  /-- The reply is that of a new session. -/
  alone : e.reply = ((⟨supply, 0⟩ : Session σ η α).handle e.message).1

namespace Session

variable {σ η α : Type}

private theorem handle_reply (s : Session σ η α) (message : Value) :
    (s.handle message).1 = ((⟨s.supply, 0⟩ : Session σ η α).handle message).1 := by
  unfold handle
  split
  · split
    · rw [generate_eq]
    · rfl
  · rfl

/-- One message and its reply. -/
def exchange (s : Session σ η α) (message : Value) : Exchange σ α where
  message := message
  before := s.asked
  reply := (s.handle message).1
  after := (s.handle message).2.asked

theorem handle_sound (s : Session σ η α) (message : Value) :
    (s.exchange message).Sound s.supply where
  other h := by
    obtain ⟨hnotices, hsame, hnone⟩ := s.handle_of_not_asksFor h
    exact ⟨hnotices, congrArg asked hsame, hnone⟩
  notice text h := by
    have htold := s.generate_told text
    rw [← s.handle_of_asksFor h] at htold
    exact exists_notice_of_told htold
  summary text h := by
    have htold := s.generate_told text
    rw [← s.handle_of_asksFor h] at htold
    exact result_eq_ok_some_iff htold
  asked text h := by
    have hhandle : s.handle message = s.generate text := s.handle_of_asksFor h
    show (s.handle message).2.asked = s.asked + _
    rw [hhandle, generate_eq]
  alone := s.handle_reply message

/-- The session after a message, when the next request for a painter will get
the answer that is due. -/
def next (answers : Nat → Except Failure (Workplace σ η α)) (s : Session σ η α)
    (message : Value) : Session σ η α :=
  let asked := (s.handle message).2.asked
  { (s.handle message).2 with supply := answers asked }

/-- Messages handled in order. -/
def conversation (answers : Nat → Except Failure (Workplace σ η α)) (s : Session σ η α) :
    List Value → List (Exchange σ α)
  | [] => []
  | message :: rest => s.exchange message :: conversation answers (s.next answers message) rest

/-- A new session. -/
def opening (answers : Nat → Except Failure (Workplace σ η α)) : Session σ η α := ⟨answers 0, 0⟩

/-! ## Conversations -/

theorem conversation_messages (answers : Nat → Except Failure (Workplace σ η α))
    (messages : List Value) :
    ∀ s : Session σ η α, (s.conversation answers messages).map (·.message) = messages := by
  induction messages with
  | nil =>
      intro s
      rfl
  | cons message rest ih =>
      intro s
      rw [conversation, List.map_cons, ih]
      rfl

private theorem sound_of_mem_conversation {answers : Nat → Except Failure (Workplace σ η α)}
    (messages : List Value) :
    ∀ s : Session σ η α, s.supply = answers s.asked →
      ∀ e ∈ s.conversation answers messages, e.Sound (answers e.before) := by
  induction messages with
  | nil =>
      intro s _ e he
      cases he
  | cons message rest ih =>
      intro s hs e he
      rcases List.mem_cons.1 he with rfl | he
      · rw [show (s.exchange message).before = s.asked from rfl, ← hs]
        exact s.handle_sound message
      · exact ih (s.next answers message) rfl e he

/-- Any messages can be sent to a session, whatever its supply of painters
answers at each request. Every message is answered as it should be, and as a new
session would answer it that meets the same answer of the supply. If the supply
always answers the same, the replies are those to each message alone. -/
theorem conversation_sound (answers : Nat → Except Failure (Workplace σ η α))
    (messages : List Value) :
    ((opening answers).conversation answers messages).map (·.message) = messages ∧
    (∀ e ∈ (opening answers).conversation answers messages, e.Sound (answers e.before)) ∧
    ((∀ n, answers n = answers 0) →
      ((opening answers).conversation answers messages).map (·.reply) =
        messages.map fun message => ((opening answers).handle message).1) := by
  have hmessages := conversation_messages answers messages (opening answers)
  have hsound := sound_of_mem_conversation messages (opening answers) rfl
  refine ⟨hmessages, hsound, fun hsteady => ?_⟩
  conv_rhs => rw [← hmessages, List.map_map]
  refine List.map_congr_left fun e he => ?_
  rw [(hsound e he).alone, hsteady e.before]
  rfl

/-- Painters that do nothing, from a supply that at first fails without a
word. -/
def idle : Nat → Except Failure (Workplace Unit Unit Unit)
  | 0 => .error (.plain (.custom "ValueError" " "))
  | _ => .ok ⟨⟨fun _ => pure (), fun _ => pure (), fun _ _ _ => pure (), pure ()⟩, ()⟩

/-- No object, another command, a number for a text, and two requests. -/
def mixed : List Value :=
  [.list [], .object [("command", .text "resize")],
   .object [("command", .text "generate"), ("text", .integer 5)],
   .object [("command", .text "generate")],
   .object [("command", .text "generate"), ("text", .text "")]]

theorem mixed_conversation :
    ((opening idle).conversation idle mixed).map (·.reply.notices) =
      [[], [], [⟨"Error generating screen flow: 'int' object has no attribute 'splitlines'", true⟩],
        [⟨"Error generating screen flow: Unknown error", true⟩], [successNotice]] ∧
    (∀ e ∈ (opening idle).conversation idle mixed, e.Sound (idle e.before)) ∧
    ((opening fun n => idle (n + 1)).conversation (fun n => idle (n + 1)) mixed).map (·.reply) =
      mixed.map fun message => ((opening fun n => idle (n + 1)).handle message).1 :=
  ⟨rfl, (conversation_sound idle mixed).2.1,
    (conversation_sound (fun n => idle (n + 1)) mixed).2.2 fun _ => rfl⟩

end Session

end Storyboard
