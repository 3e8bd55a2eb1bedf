import Ensemble.Proofs.Wire.Fields
import Ensemble.Proofs.Wire.RunId
import Ensemble.Wire.Event
import Mathlib.Data.List.Forall2

/-!
# Events that are written and read

The form of an event is what its JSON value has to say, field by field, whatever the order of the
fields. A lax form may say null for a part that is absent, and leaves the blackboard out if there is
nothing on it. What is written of an event has the strict form, and every value of the lax form is
read as the event.
-/

namespace Ensemble.Wire

/-! ## Messages -/

section Messages

variable {lax : Bool}

/-- The values of a name that stand for a part that may be absent. -/
def OptionalForm {α : Type} (lax : Bool) (write : α → Json) (a : Option α)
    (vs : List Json) : Prop :=
  match a with
  | some a => vs = [write a]
  | none => vs = [] ∨ lax = true ∧ vs = [.null]

theorem OptionalForm.read {α : Type} {write : α → Json} {read : Json → Option α} {a : Option α}
    {vs : List Json} (h : OptionalForm lax write a vs)
    (hread : ∀ a, nullable? read (write a) = some (some a)) :
    part? (nullable? read) (some none) vs = some a := by
  cases a with
  | none =>
    rcases h with rfl | ⟨-, rfl⟩
    · rfl
    · rfl
  | some a =>
    obtain rfl : vs = [write a] := h
    exact hread a

theorem optionalForm_toList {α : Type} (lax : Bool) (write : α → Json) (a : Option α) :
    OptionalForm lax write a (a.map write).toList := by
  cases a with
  | none => exact .inl rfl
  | some a => exact (rfl : [write a] = [write a])

/-- The form of a message. -/
inductive MessageForm (lax : Bool) (m : Message) : Json → Prop
  | obj {fields : List (String × Json)}
      (sender : valuesOf "from" fields = [.str m.sender])
      (recipient : OptionalForm lax .str m.recipient (valuesOf "to" fields))
      (content : valuesOf "content" fields = [.str m.content])
      (metadata : OptionalForm lax Metadata.toJson m.metadata (valuesOf "metadata" fields)) :
      MessageForm lax m (.obj fields)

theorem metadata?_toJson (d : Metadata) : metadata? d.toJson = some d := by
  have hfields (l : List (String × Json)) : l.mapM some = some l := by
    induction l with
    | nil => rfl
    | cons e l ih => simp [ih]
  calc metadata? d.toJson = (d.entries.mapM some).map Dict.ofList := rfl
    _ = some d := by rw [hfields, Option.map_some, Dict.ofList_entries]

theorem message?_obj {fields : List (String × Json)} {m : Message} :
    message? (.obj fields) = some m ↔
      part? text? none (valuesOf "from" fields) = some m.sender ∧
      part? (nullable? text?) (some none) (valuesOf "to" fields) = some m.recipient ∧
      part? text? none (valuesOf "content" fields) = some m.content ∧
      part? (nullable? metadata?) (some none) (valuesOf "metadata" fields) = some m.metadata := by
  refine record?_bind_obj (fun h => ?_) fun n hn hlen => ?_
  · simp only [required_obj (h "from" (by simp)), optional_obj (h "to" (by simp)),
      required_obj (h "content" (by simp)), optional_obj (h "metadata" (by simp))]
    cases m
    simp [Option.bind_eq_some_iff]
  · simp only [List.mem_cons, List.not_mem_nil, or_false] at hn
    rcases hn with rfl | rfl | rfl | rfl <;> simp [part?_many hlen]

theorem message_form (m : Message) : MessageForm lax m (message m) := by
  have hrecipient := optionalForm_toList lax .str m.recipient
  have hmetadata := optionalForm_toList lax Metadata.toJson m.metadata
  rw [message, object_eq]
  constructor <;> simp [hrecipient, hmetadata]

theorem MessageForm.read {m : Message} {v : Json} (h : MessageForm lax m v) :
    message? v = some m := by
  obtain ⟨hsender, hrecipient, hcontent, hmetadata⟩ := h
  refine message?_obj.mpr ⟨by simp [hsender], hrecipient.read nullable?_str, by simp [hcontent],
    hmetadata.read fun d => congrArg (Option.map some) (metadata?_toJson d)⟩

end Messages

/-! ## Results -/

section Results

variable {lax : Bool}

/-- The form of a list: its items in their order. -/
inductive ListForm {α : Type} (form : α → Json → Prop) (l : List α) : Json → Prop
  | arr {items : List Json} (h : List.Forall₂ form l items) : ListForm form l (.arr items)

theorem ListForm.read {α : Type} {form : α → Json → Prop} {read : Json → Option α} {l : List α}
    {v : Json} (h : ListForm form l v) (hread : ∀ a v, form a v → read v = some a) :
    list? read v = some l := by
  obtain ⟨h⟩ := h
  rw [list?]
  induction h with
  | nil => rfl
  | cons hform _ ih => simp [hread _ _ hform, ih]

theorem array_form {α : Type} {form : α → Json → Prop} {write : α → Json}
    (h : ∀ a, form a (write a)) (l : List α) : ListForm form l (array write l) := by
  refine ⟨?_⟩
  induction l with
  | nil => exact .nil
  | cons a l ih => exact .cons (h a) ih

/-- The form of the replies of a participant. -/
inductive TranscriptForm (lax : Bool) (t : AgentTranscript) : Json → Prop
  | obj {fields : List (String × Json)} {messages : Json}
      (agentId : valuesOf "agent_id" fields = [.str t.agentId])
      (value : valuesOf "messages" fields = [messages])
      (form : ListForm (MessageForm lax) t.messages messages) : TranscriptForm lax t (.obj fields)

theorem agentTranscript?_obj {fields : List (String × Json)} {t : AgentTranscript} :
    agentTranscript? (.obj fields) = some t ↔
      part? text? none (valuesOf "agent_id" fields) = some t.agentId ∧
      part? (list? message?) none (valuesOf "messages" fields) = some t.messages := by
  refine record?_bind_obj (fun h => ?_) fun n hn hlen => ?_
  · simp only [required_obj (h "agent_id" (by simp)), required_obj (h "messages" (by simp))]
    cases t
    simp [Option.bind_eq_some_iff]
  · simp only [List.mem_cons, List.not_mem_nil, or_false] at hn
    rcases hn with rfl | rfl <;> simp [part?_many hlen]

theorem agentTranscript_form (t : AgentTranscript) : TranscriptForm lax t (agentTranscript t) := by
  rw [agentTranscript, object_eq]
  refine .obj ?_ ?_ (array_form message_form t.messages) <;> simp

theorem TranscriptForm.read {t : AgentTranscript} {v : Json} (h : TranscriptForm lax t v) :
    agentTranscript? v = some t := by
  obtain ⟨hid, hvalue, hform⟩ := h
  refine agentTranscript?_obj.mpr ⟨by simp [hid], ?_⟩
  rw [hvalue, part?_singleton]
  exact hform.read fun _ _ => MessageForm.read

/-- The form of a result. -/
inductive ResultForm (lax : Bool) (r : RunResult) : Json → Prop
  | obj {fields : List (String × Json)} {messages agentResults : Json}
      (runId : valuesOf "run_id" fields = [.str r.stamp.runId.text])
      (output : valuesOf "output" fields = [.str r.output])
      (messagesValue : valuesOf "messages" fields = [messages])
      (messagesForm : ListForm (MessageForm lax) r.messages messages)
      (pattern : valuesOf "pattern" fields = [.str r.pattern.name])
      (agentResultsValue : valuesOf "agent_results" fields = [agentResults])
      (agentResultsForm : ListForm (TranscriptForm lax) r.agentResults.entries agentResults)
      (durationMs : valuesOf "duration_ms" fields = [.nat r.durationMs])
      (rounds : valuesOf "rounds" fields = [.nat r.rounds])
      (cancelled : valuesOf "cancelled" fields = [.bool r.cancelled])
      (timedOut : valuesOf "timed_out" fields = [.bool r.timedOut])
      (blackboard : valuesOf "blackboard" fields = [r.blackboard.toJson] ∨
        lax = true ∧ r.blackboard = .empty ∧ valuesOf "blackboard" fields = [])
      (startedAt : valuesOf "started_at" fields = [.str r.stamp.startedAt.text]) :
      ResultForm lax r (.obj fields)

theorem runResultWith?_obj {pattern? : Json → Option PatternKind} {fields : List (String × Json)}
    {r : RunResult} : runResultWith? pattern? (.obj fields) = some r ↔
      part? runId? none (valuesOf "run_id" fields) = some r.stamp.runId ∧
      part? text? none (valuesOf "output" fields) = some r.output ∧
      part? (list? message?) none (valuesOf "messages" fields) = some r.messages ∧
      part? pattern? none (valuesOf "pattern" fields) = some r.pattern ∧
      part? agentResults? none (valuesOf "agent_results" fields) = some r.agentResults ∧
      part? count? none (valuesOf "duration_ms" fields) = some r.durationMs ∧
      part? count? none (valuesOf "rounds" fields) = some r.rounds ∧
      part? flag? none (valuesOf "cancelled" fields) = some r.cancelled ∧
      part? flag? none (valuesOf "timed_out" fields) = some r.timedOut ∧
      part? metadata? (some Dict.empty) (valuesOf "blackboard" fields) = some r.blackboard ∧
      part? timestamp? none (valuesOf "started_at" fields) = some r.stamp.startedAt := by
  refine record?_bind_obj (fun h => ?_) fun n hn hlen => ?_
  · simp only [List.forall_mem_cons] at h
    obtain ⟨hrunId, houtput, hmessages, hpattern, hresults, hduration, hrounds, hcancelled,
      htimedOut, hblackboard, hstartedAt, -⟩ := h
    simp only [required_obj hrunId, required_obj houtput, required_obj hmessages,
      required_obj hpattern, required_obj hresults, required_obj hduration, required_obj hrounds,
      required_obj hcancelled, required_obj htimedOut, defaulted_obj _ hblackboard,
      required_obj hstartedAt]
    simp only [Option.bind_eq_bind, Option.bind_eq_some_iff, Option.some.injEq]
    constructor
    · rintro ⟨_, h₁, _, h₂, _, h₃, _, h₄, _, h₅, _, h₆, _, h₇, _, h₈, _, h₉, _, h₁₀, _, h₁₁, rfl⟩
      exact ⟨h₁, h₂, h₃, h₄, h₅, h₆, h₇, h₈, h₉, h₁₀, h₁₁⟩
    · rintro ⟨h₁, h₂, h₃, h₄, h₅, h₆, h₇, h₈, h₉, h₁₀, h₁₁⟩
      exact ⟨_, h₁, _, h₂, _, h₃, _, h₄, _, h₅, _, h₆, _, h₇, _, h₈, _, h₉, _, h₁₀, _, h₁₁, rfl⟩
  · simp only [List.mem_cons, List.not_mem_nil, or_false] at hn
    rcases hn with rfl | rfl | rfl | rfl | rfl | rfl | rfl | rfl | rfl | rfl | rfl <;>
      simp [part?_many hlen]

theorem runResult_form (r : RunResult) : ResultForm lax r (runResult r) := by
  rw [runResult, object_eq]
  refine .obj ?_ ?_ ?_ (array_form message_form r.messages) ?_ ?_
    (array_form agentTranscript_form r.agentResults.entries) ?_ ?_ ?_ ?_ (.inl ?_) ?_ <;>
    simp [resultFields, runId, patternKind, agentResults, timestamp]

theorem patternKind?_name (k : PatternKind) :
    patternKind? (emptyAsNull (.str k.name)) = some k := by
  cases k <;> rfl

/-- A result is read from its form if the moment of its start is read from its text. -/
theorem ResultForm.read {r : RunResult} {v : Json} (h : ResultForm lax r v)
    (hstart : Timestamp.parse? r.stamp.startedAt.text = some r.stamp.startedAt) :
    runResultWith? (fun v => patternKind? (emptyAsNull v)) v = some r := by
  obtain @⟨fields, messages, agentResults, hrunId, houtput, hmessages, hmessagesForm, hpattern,
    hresults, hresultsForm, hduration, hrounds, hcancelled, htimedOut, hblackboard, hstartedAt⟩ := h
  have hmessagesRead := hmessagesForm.read fun _ _ => MessageForm.read
  have hresultsRead := hresultsForm.read fun _ _ => TranscriptForm.read
  have hboard : part? metadata? (some Dict.empty) (valuesOf "blackboard" fields) =
      some r.blackboard := by
    rcases hblackboard with hvalue | ⟨-, hempty, hnone⟩
    · rw [hvalue]
      exact metadata?_toJson r.blackboard
    · rw [hnone, hempty]
      rfl
  refine runResultWith?_obj.mpr ⟨?_, ?_, ?_, ?_, ?_, ?_, ?_, ?_, ?_, hboard, ?_⟩
  all_goals simp [*, runId?, RunId.parse?_text, timestamp?, patternKind?_name, agentResults?]

end Results

/-! ## Events -/

/-- The form of an event. -/
inductive EventForm (lax : Bool) : Event → Json → Prop
  | agentStart {fields : List (String × Json)} {id : String}
      (type : valuesOf "type" fields = [.str "agent_start"])
      (agentId : valuesOf "agent_id" fields = [.str id]) :
      EventForm lax (.agentStart id) (.obj fields)
  | agentEnd {fields : List (String × Json)} {id : String}
      (type : valuesOf "type" fields = [.str "agent_end"])
      (agentId : valuesOf "agent_id" fields = [.str id]) :
      EventForm lax (.agentEnd id) (.obj fields)
  | message {fields : List (String × Json)} {id : String} {m : Message} {v : Json}
      (type : valuesOf "type" fields = [.str "message"])
      (agentId : valuesOf "agent_id" fields = [.str id])
      (value : valuesOf "message" fields = [v]) (form : MessageForm lax m v) :
      EventForm lax (.message id m) (.obj fields)
  | roundStart {fields : List (String × Json)} {n : Nat}
      (type : valuesOf "type" fields = [.str "round_start"])
      (round : valuesOf "round" fields = [.nat n]) : EventForm lax (.roundStart n) (.obj fields)
  | roundEnd {fields : List (String × Json)} {n : Nat}
      (type : valuesOf "type" fields = [.str "round_end"])
      (round : valuesOf "round" fields = [.nat n]) : EventForm lax (.roundEnd n) (.obj fields)
  | error {fields : List (String × Json)} {id : Option String} {detail : String}
      (type : valuesOf "type" fields = [.str "error"])
      (agentId : OptionalForm lax .str id (valuesOf "agent_id" fields))
      (error : valuesOf "error" fields = [.str detail]) :
      EventForm lax (.error id detail) (.obj fields)
  | complete {fields : List (String × Json)} {r : RunResult} {v : Json}
      (type : valuesOf "type" fields = [.str "complete"])
      (value : valuesOf "result" fields = [v]) (form : ResultForm lax r v) :
      EventForm lax (.complete r) (.obj fields)

/-- The moment at which the run of a last event began is read back from its text. -/
def Dated : Event → Prop
  | .complete r => Timestamp.parse? r.stamp.startedAt.text = some r.stamp.startedAt
  | _ => True

section Events

variable {lax : Bool} {e : Event} {v : Json}

theorem event_form (e : Event) : EventForm lax e (event e) := by
  cases e with
  | agentStart id =>
    rw [event, eventWith, object_eq]
    constructor <;> simp
  | agentEnd id =>
    rw [event, eventWith, object_eq]
    constructor <;> simp
  | message id m =>
    rw [event, eventWith, object_eq]
    refine .message ?_ ?_ ?_ (message_form m) <;> simp
  | roundStart n =>
    rw [event, eventWith, object_eq]
    constructor <;> simp
  | roundEnd n =>
    rw [event, eventWith, object_eq]
    constructor <;> simp
  | error id detail =>
    have hid := optionalForm_toList lax .str id
    rw [event, eventWith, object_eq]
    constructor <;> simp [hid]
  | complete r =>
    rw [event, eventWith, object_eq]
    refine .complete ?_ ?_ (runResult_form r) <;> simp

theorem tagged?_obj {tag : String} {fields : List (String × Json)}
    (h : valuesOf tag fields = [v]) :
    tagged? tag (.obj fields) = some (v, .obj (fields.filter fun f => f.1 ≠ tag)) := by
  simp [tagged?, h]

/-- The field that names the case hides no other. -/
theorem valuesOf_rest {tag n : String} (h : n ≠ tag) (fields : List (String × Json)) :
    valuesOf n (fields.filter fun f => !decide (f.1 = tag)) = valuesOf n fields :=
  valuesOf_filter (p := fun n => !decide (n = tag)) (by simpa using h)

/-- An event is read from its form. -/
theorem EventForm.read (h : EventForm lax e v) (hdated : Dated e) : event? v = some e := by
  cases h with
  | agentStart htype hid =>
    simp [event?, tagged?_obj htype, record?, required, hid, valuesOf_rest]
  | agentEnd htype hid =>
    simp [event?, tagged?_obj htype, record?, required, hid, valuesOf_rest]
  | message htype hid hvalue hform =>
    simp [event?, tagged?_obj htype, record?, required, hid, hvalue, hform.read, valuesOf_rest]
  | roundStart htype hn =>
    simp [event?, tagged?_obj htype, record?, required, hn, valuesOf_rest]
  | roundEnd htype hn =>
    simp [event?, tagged?_obj htype, record?, required, hn, valuesOf_rest]
  | @error fields id _ htype hid hdetail =>
    cases id with
    | none =>
      rcases hid with hid | ⟨-, hid⟩ <;>
        simp [event?, tagged?_obj htype, record?, required, optional, hid, hdetail, valuesOf_rest]
    | some id =>
      have hid : valuesOf "agent_id" fields = [.str id] := hid
      simp [event?, tagged?_obj htype, record?, required, optional, hid, hdetail, valuesOf_rest]
  | complete htype hvalue hform =>
    simp [event?, tagged?_obj htype, record?, required, hvalue, hform.read hdated, valuesOf_rest]

end Events

/-- **Events come back from the wire.** What is written of an event is read as the same event, so
two events are never written alike, and it has the strict form: an optional part is a field if it
is there and no field if it is not, and lists keep their order. A value of the lax form, with a null
where a part is absent or without an empty blackboard, is read as the event too. Metadata without
entries is not the same as no metadata. -/
theorem event_round_trip (e : Event) (hdated : Dated e) :
    event? (event e) = some e ∧
    (∀ e', Dated e' → event e = event e' → e = e') ∧
    EventForm false e (event e) ∧
    (∀ v, EventForm true e v → event? v = some e) ∧
    (∀ id (m : Message), event (.message id { m with metadata := some .empty }) ≠
      event (.message id { m with metadata := none })) := by
  have hread {e : Event} (h : Dated e) : event? (event e) = some e := by
    have hform : EventForm false e (event e) := event_form e
    exact hform.read h
  have hinj {e e' : Event} (h : Dated e) (h' : Dated e') (heq : event e = event e') : e = e' :=
    Option.some.inj ((hread h).symm.trans (heq ▸ hread h'))
  refine ⟨hread hdated, fun e' h => hinj hdated h, event_form e, fun v h => h.read hdated,
    fun id m heq => ?_⟩
  have hsame : Event.message id { m with metadata := some .empty } =
      .message id { m with metadata := none } := hinj trivial trivial heq
  simp at hsame

/-- The last event of a run, with its fields in another order, a null for a recipient and no
blackboard. -/
theorem event_round_trip_complete :
    Timestamp.parse? (Timestamp.text ⟨0, 0⟩) = some ⟨0, 0⟩ ∧
    event? (.obj [("result", .obj [
        ("run_id", "00000000-0000-0000-0000-000000000000"),
        ("started_at", "1970-01-01T00:00:00Z"),
        ("output", "done"),
        ("messages", .arr [.obj [("to", .null), ("from", "bob"), ("content", "done"),
          ("metadata", .obj [])]]),
        ("pattern", "swarm"),
        ("agent_results", .arr [.obj [("agent_id", "bob"), ("messages", .arr [])],
          .obj [("agent_id", "alice"), ("messages", .arr [])]]),
        ("duration_ms", .nat 7), ("rounds", .nat 1), ("cancelled", .bool false),
        ("timed_out", .bool true)]),
      ("type", "complete")]) =
      some (.complete
        { stamp := ⟨⟨0⟩, ⟨0, 0⟩⟩, output := "done"
          messages := [⟨"bob", none, "done", some .empty⟩], pattern := .swarm
          agentResults := ⟨[⟨"bob", []⟩, ⟨"alice", []⟩]⟩, durationMs := 7, rounds := 1
          cancelled := false, timedOut := true, blackboard := .empty }) := by
  have hdated : Timestamp.parse? (Timestamp.text ⟨0, 0⟩) = some ⟨0, 0⟩ := by decide +kernel
  have hrunId : "00000000-0000-0000-0000-000000000000" = RunId.text ⟨0⟩ := by decide
  have hstart : "1970-01-01T00:00:00Z" = Timestamp.text ⟨0, 0⟩ := by decide +kernel
  refine ⟨hdated, (event_round_trip (.complete _) ?_).2.2.2.1 _ (.complete rfl rfl ?_)⟩
  · exact hdated
  refine .obj (congrArg (fun s => [Json.str s]) hrunId) rfl rfl (.arr (.cons ?_ .nil)) rfl rfl
    (.arr (.cons ?_ (.cons ?_ .nil))) rfl rfl rfl rfl (.inr ⟨rfl, rfl, rfl⟩)
    (congrArg (fun s => [Json.str s]) hstart)
  · exact .obj rfl (.inr ⟨rfl, rfl⟩) rfl rfl
  · exact .obj rfl rfl (.arr .nil)
  · exact .obj rfl rfl (.arr .nil)

end Ensemble.Wire
