import ManagementPlane.Proofs.Hearing

/-!
# Who is told what

Reading a store tells a listener of problems, one after the other, and ends with the first that the listener rejects.
What it would tell does not depend on the listener.

* `Listener.hear` : what a listener answers to a notification;
* `Listener.noting` : the same listener, which also writes down all that it is told;
* `Tells notes a x` : the reading `x` tells the notes in order and yields `a`, or stops with the first that is rejected;
* `tells_manifest`, `tells_snapshot`, `tells_load` : so do the readings of a store.
-/

namespace ManagementPlane

variable {σ α β : Type}

/-! ## Loops -/

namespace Step

variable {ε : Type} {items before after : List α} {a : α} {step : α → Step σ ε Unit} {s t u : σ} {e : ε}

theorem forEach_append (before after : List α) (step : α → Step σ ε Unit) :
    forEach (before ++ after) step = (do forEach before step; forEach after step) := by
  induction before with
  | nil => rfl
  | cons a before ih => rw [List.cons_append, forEach_cons, forEach_cons, ih, bind_assoc]

theorem forEach_map (items : List β) (f : β → α) (step : α → Step σ ε Unit) :
    forEach (items.map f) step = forEach items fun b => step (f b) := by
  induction items with
  | nil => rfl
  | cons b items ih => rw [List.map_cons, forEach_cons, forEach_cons, ih]

/-- A loop stops with the first item that stops. -/
theorem on_forEach_of_stop (hbefore : on (forEach before step) s = (.ok (), u)) (ha : on (step a) u = (.error e, t)) :
    on (forEach (before ++ a :: after) step) s = (.error e, t) := by
  rw [forEach_append, on_bind, hbefore, forEach_cons]
  dsimp only
  rw [on_bind, ha]

end Step

/-! ## Listeners -/

/-- A notification that may come up while a store is read. -/
def Notification.OnReading : Notification → Prop
  | .loadFailed .. | .dangling .. => True
  | _ => False

namespace Listener

/-- A listener that rejects nothing. -/
structure Accepting (l : Listener σ) : Prop where
  loadFailed : ∀ kind message e, (l.loadFailed kind message e).GoesOn
  dangling : ∀ kind id, (l.dangling kind id).GoesOn

/-- What a listener answers. It is told of payloads that cannot be read and of dangling references only. -/
def hear (l : Listener σ) : Notification → Step σ StoreError Unit
  | .loadFailed kind message e => l.loadFailed kind message e
  | .dangling kind id => l.dangling kind id
  | _ => pure ()

/-- Write down a notification, then answer it. -/
def noted (note : Notification) (answer : Step σ StoreError Unit) : Step (σ × List Notification) StoreError Unit := do
  Step.update fun s => (s.1, s.2 ++ [note])
  answer.within Prod.fst fun t s => (t, s.2)

/-- The same listener, which also writes down all that it is told. -/
def noting (l : Listener σ) : Listener (σ × List Notification) where
  loadFailed kind message e := noted (.loadFailed kind message e) (l.loadFailed kind message e)
  dangling kind id := noted (.dangling kind id) (l.dangling kind id)

variable {l : Listener σ} {note : Notification} {notes : List Notification} {s t : σ}

theorem Accepting.hear (hl : l.Accepting) (note : Notification) : (l.hear note).GoesOn := by
  cases note with
  | loadFailed kind message e => exact hl.loadFailed kind message e
  | dangling kind id => exact hl.dangling kind id
  | _ => exact .pure ()

theorem on_noted (note : Notification) (answer : Step σ StoreError Unit) (s : σ) (told : List Notification) :
    (noted note answer).on (s, told) = ((answer.on s).1, (answer.on s).2, told ++ [note]) := rfl

theorem on_hear_noting (hnote : note.OnReading) (s : σ) (told : List Notification) :
    (l.noting.hear note).on (s, told) = (((l.hear note).on s).1, ((l.hear note).on s).2, told ++ [note]) := by
  cases note with
  | loadFailed kind message e => exact on_noted _ _ s told
  | dangling kind id => exact on_noted _ _ s told
  | _ => cases hnote

/-- Notifications that are all accepted are all written down, in order. -/
theorem on_forEach_noting (told : List Notification) (hnotes : ∀ note ∈ notes, note.OnReading)
    (h : (Step.forEach notes l.hear).on s = (.ok (), t)) :
    (Step.forEach notes l.noting.hear).on (s, told) = (.ok (), t, told ++ notes) := by
  induction notes generalizing s told with
  | nil =>
    cases h
    rw [List.append_nil]
    rfl
  | cons note notes ih =>
    rw [Step.forEach_cons] at h ⊢
    obtain ⟨_, u, hnote, hrest⟩ := Step.on_bind_eq_ok_iff.1 h
    have hheard := on_hear_noting (l := l) (hnotes note List.mem_cons_self) s told
    rw [hnote] at hheard
    have hih := ih (told ++ [note]) (fun n hn => hnotes n (List.mem_cons_of_mem _ hn)) hrest
    rw [List.append_assoc, List.singleton_append] at hih
    exact Step.on_bind_eq_ok_iff.2 ⟨(), _, hheard, hih⟩

/-- A listener that rejects nothing hears everything. -/
theorem Accepting.forEach (hl : l.Accepting) (notes : List Notification) (s : σ) :
    ∃ t, (Step.forEach notes l.hear).on s = (.ok (), t) := by
  induction notes generalizing s with
  | nil => exact ⟨s, rfl⟩
  | cons note notes ih =>
    obtain ⟨_, u, hu⟩ := hl.hear note s
    obtain ⟨t, ht⟩ := ih u
    exact ⟨t, Step.on_bind_eq_ok_iff.2 ⟨(), u, hu, ht⟩⟩

end Listener

/-! ## Readings that tell -/

/-- A reading yields `a` and tells its listener `notes`, in order: all of them if the listener rejects none, and else those
up to the first that it rejects, whose rejection is the result. -/
structure Tells (notes : List Notification) (a : α) (x : ∀ {σ : Type}, Listener σ → Step σ StoreError α) : Prop where
  accepted : ∀ {σ : Type} (l : Listener σ) (s : σ), l.Accepting → ∃ t,
    (x l).on s = (.ok a, t) ∧ (x l.noting).on (s, []) = (.ok a, t, notes)
  rejected : ∀ {σ : Type} (l : Listener σ) (s t u : σ) (e : StoreError) (note : Notification)
    (before after : List Notification), notes = before ++ note :: after →
    (Step.forEach before l.hear).on s = (.ok (), u) → (l.hear note).on u = (.error e, t) →
    (x l).on s = (.error e, t) ∧ (x l.noting).on (s, []) = (.error e, t, before ++ [note])

theorem Tells.of_eq {notes : List Notification} {a : α} {x : ∀ {σ : Type}, Listener σ → Step σ StoreError α}
    (hnotes : ∀ note ∈ notes, note.OnReading)
    (hx : ∀ {σ : Type} (l : Listener σ), x l = (do Step.forEach notes l.hear; pure a)) : Tells notes a x where
  accepted l s hl := by
    obtain ⟨t, ht⟩ := hl.forEach notes s
    have hnoting := Listener.on_forEach_noting [] hnotes ht
    refine ⟨t, ?_, ?_⟩
    · rw [hx, Step.on_bind, ht]
      rfl
    · rw [hx, Step.on_bind, hnoting]
      rfl
  rejected l s t u e note before after hsplit hbefore hnote := by
    subst hsplit
    have hproblem : note.OnReading := hnotes note (List.mem_append_right _ List.mem_cons_self)
    have hnoting := Listener.on_forEach_noting []
      (fun n hn => hnotes n (List.mem_append_left _ hn)) hbefore
    have hheard := Listener.on_hear_noting (l := l) hproblem u before
    rw [hnote] at hheard
    refine ⟨?_, ?_⟩
    · rw [hx, Step.on_bind, Step.on_forEach_of_stop hbefore hnote]
    · rw [hx, Step.on_bind, Step.on_forEach_of_stop hnoting hheard]

/-! ## The readings of a store -/

section Notes
variable {l : Listener σ}

theorem onReading_undecodableNotes {read : String → Option α} {declared : α → String} {kind : ObjectKind}
    {payloads : List (String × String)} : ∀ note ∈ undecodableNotes read declared kind payloads, note.OnReading := by
  intro note h
  obtain ⟨f, -, rfl⟩ := List.mem_map.1 h
  trivial

theorem decodeAll_eq_hear (read : String → Option α) (declared : α → String) (kind : ObjectKind)
    (payloads : OrderedMap String String) : decodeAll read declared kind l payloads.entries ∅ = (do
      Step.forEach (undecodableNotes read declared kind payloads.entries) l.hear
      pure (decodeTable read declared kind payloads)) := by
  rw [decodeAll_eq, undecodableNotes, Step.forEach_map]
  rfl

/-- What a listener is told while a manifest is read. -/
theorem tells_manifest (raw : RawData) : Tells raw.manifestNotes raw.manifest (Manifest.decode raw) := by
  apply Tells.of_eq
  · simp only [RawData.manifestNotes, List.forall_mem_append]
    exact ⟨⟨onReading_undecodableNotes, onReading_undecodableNotes⟩, onReading_undecodableNotes⟩
  · intro σ l
    unfold Manifest.decode RawData.manifestNotes
    simp only [decodeAll_eq_hear, Step.forEach_append, bind_assoc, pure_bind]
    rfl

/-- What a listener is told while a snapshot is read. -/
theorem tells_snapshot (raw : RawData) (known : ObjectKind → String → Bool) :
    Tells (raw.snapshotNotes ++ raw.snapshot.danglingNotes known) raw.snapshot (Snapshot.decode raw known) := by
  apply Tells.of_eq
  · have hload {k : ObjectKind} : ∀ note ∈ raw.mementoNotes k, note.OnReading := onReading_undecodableNotes
    have hdangling : ∀ note ∈ raw.snapshot.danglingNotes known, note.OnReading := by
      intro note hnote
      obtain ⟨r, -, rfl⟩ := List.mem_map.1 hnote
      trivial
    simp only [RawData.snapshotNotes, List.forall_mem_append]
    exact ⟨⟨⟨⟨⟨⟨hload, hload⟩, hload⟩, hload⟩, hload⟩, onReading_undecodableNotes⟩, hdangling⟩
  · intro σ l
    unfold Snapshot.decode Snapshot.decodeKind RawData.snapshotNotes RawData.mementoNotes Snapshot.danglingNotes
    simp only [decodeAll_eq_hear, Step.forEach_append, Step.forEach_map, bind_assoc, pure_bind]
    rfl

/-- What a listener is told while the payloads of a store are read. -/
theorem tells_load {source : Source} {failures : List (ObjectKind × String × StoreError)}
    (hs : source.unreadable = .ok failures) : Tells (Source.unreadableNotes failures) source.payloads source.load := by
  apply Tells.of_eq
  · intro note hnote
    obtain ⟨f, -, rfl⟩ := List.mem_map.1 hnote
    trivial
  · intro σ l
    rw [Source.load_eq, hs, Source.unreadableNotes, Step.forEach_map]
    rfl

end Notes

end ManagementPlane
