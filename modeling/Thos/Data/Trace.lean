namespace Data.Trace

/-! Traces of events read against the history recorded before each of them. -/

variable {Event History : Type} {record : History → Event → History}
  {Admits : History → Event → Prop} {history : History}

def Sound (record : History → Event → History)
    (Admits : History → Event → Prop) : History → List Event → Prop
  | _, [] => True
  | history, event :: events =>
      Admits history event ∧ Sound record Admits (record history event) events

theorem sound_append (first second : List Event) :
    Sound record Admits history (first ++ second) ↔
      Sound record Admits history first ∧
        Sound record Admits (first.foldl record history) second := by
  induction first generalizing history with
  | nil => simp [Sound]
  | cons event events induction =>
      rw [List.cons_append, Sound, Sound, induction, and_assoc]
      rfl

theorem Sound.admits {events : List Event} {index : Nat} {event : Event}
    (sound : Sound record Admits history events)
    (here : events[index]? = some event) :
    Admits ((events.take index).foldl record history) event := by
  induction events generalizing history index with
  | nil => contradiction
  | cons first rest induction =>
      cases index with
      | zero =>
          cases here
          exact sound.1
      | succ index => exact induction sound.2 here

theorem Sound.admits_of_append {before after : List Event} {event : Event}
    (sound : Sound record Admits history (before ++ event :: after)) :
    Admits (before.foldl record history) event :=
  ((sound_append before (event :: after)).mp sound).2.1

/-- What none of the events changes is as before them. -/
theorem foldl_unchanged {View : Type} (view : History → View) {events : List Event}
    (unchanged : ∀ event ∈ events, ∀ history,
      view (record history event) = view history) :
    view (events.foldl record history) = view history := by
  apply @List.foldlRecOn _ _ (fun later => view later = view history) events record
  · rfl
  · intro before same event member
    exact (unchanged event member before).trans same

/-! Events tagged with the agent whose they are. -/

section Agents

variable {Agent Happening : Type} [DecidableEq Agent]

def ofAgent (agent : Agent) (trace : List (Agent × Happening)) : List Happening :=
  (trace.filter (fun event => event.1 = agent)).map Prod.snd

theorem ofAgent_append (agent : Agent) (first second : List (Agent × Happening)) :
    ofAgent agent (first ++ second) = ofAgent agent first ++ ofAgent agent second := by
  rw [ofAgent, List.filter_append, List.map_append]
  rfl

theorem ofAgent_self (agent : Agent) (happenings : List Happening) :
    ofAgent agent (happenings.map (Prod.mk agent)) = happenings := by
  induction happenings with
  | nil => rfl
  | cons happening rest induction =>
      rw [ofAgent, List.map_cons, List.filter_cons_of_pos (by simp), List.map_cons]
      exact congrArg (List.cons happening) induction

theorem ofAgent_of_ne {agent other : Agent} (different : other ≠ agent)
    (happenings : List Happening) :
    ofAgent agent (happenings.map (Prod.mk other)) = [] := by
  rw [ofAgent, List.map_eq_nil_iff, List.filter_eq_nil_iff]
  intro event member
  obtain ⟨happening, _, rfl⟩ := List.mem_map.mp member
  simpa using different

theorem mem_ofAgent {agent : Agent} {trace : List (Agent × Happening)}
    {happening : Happening} :
    happening ∈ ofAgent agent trace ↔ (agent, happening) ∈ trace := by
  constructor
  · intro member
    obtain ⟨event, kept, rfl⟩ := List.mem_map.mp member
    obtain ⟨inside, same⟩ := List.mem_filter.mp kept
    rw [decide_eq_true_eq] at same
    rw [← same]
    exact inside
  · intro inside
    exact List.mem_map.mpr ⟨(agent, happening),
      List.mem_filter.mpr ⟨inside, decide_eq_true rfl⟩, rfl⟩

end Agents

/-- Before every late event of the trace stands its milestone. -/
def OnlyAfter (Late : Event → Prop) (milestone : Event → Event)
    (trace : List Event) : Prop :=
  ∀ before event after, trace = before ++ event :: after → Late event →
    milestone event ∈ before

theorem OnlyAfter.nil {Late : Event → Prop} {milestone : Event → Event} :
    OnlyAfter Late milestone [] := by
  intro before event after split
  simp at split

theorem OnlyAfter.append {Late : Event → Prop} {milestone : Event → Event}
    {trace events : List Event} (only : OnlyAfter Late milestone trace)
    (late : ∀ event ∈ events, Late event → milestone event ∈ trace) :
    OnlyAfter Late milestone (trace ++ events) := by
  intro before event after split isLate
  rcases List.append_eq_append_iff.mp split with
    ⟨more, rfl, tail⟩ | ⟨more, rfl, tail⟩
  · have member : event ∈ events := by
      rw [tail]
      simp
    exact List.mem_append_left more (late event member isLate)
  · cases more with
    | nil =>
        rw [List.append_nil] at late
        apply late event _ isLate
        rw [← List.nil_append events, ← tail]
        exact List.mem_cons_self
    | cons head rest =>
        cases tail
        exact only before event rest rfl isLate

/-- What leads a list up to an event that is only there is in every beginning of
the list that has the event. -/
theorem isPrefix_of_mem {events lead rest : List Event} {event : Event}
    (start : events <+: lead ++ event :: rest) (member : event ∈ events)
    (fresh : event ∉ lead) : lead ++ [event] <+: events := by
  have whole : lead ++ [event] <+: lead ++ event :: rest :=
    ⟨rest, by rw [List.append_assoc, List.singleton_append]⟩
  rcases List.prefix_or_prefix_of_prefix start whole with shorter | longer
  · rcases List.prefix_concat_iff.mp shorter with same | inside
    · exact same ▸ List.prefix_rfl
    · exact absurd (inside.subset member) fresh
  · exact longer

end Data.Trace
