import ManagementPlane.Proofs.Slots
import ManagementPlane.Proofs.Thoroughness

/-!
# What a store on disk vouches for

A payload is read of a file exactly if its bytes are an envelope whose digest fits. Files that are none are reported, be
they damaged, no texts or out of reach, and hide nothing.

* `Envelope.Vouches`, `FileContents.Vouches` : bytes are an envelope that carries the digest of what it holds, and the
  contents of a file can be had and are such bytes;
* `FileStore.HasFile` : a regular file lies directly in the directory of a kind;
* `FileStore.Integrity` : the raw data are what the files vouch for, and what is told are the other files;
* `FileStore.load_integrity` : so it is for every tree of files; and an envelope whose memento has been replaced is
  reported and skipped, or the two texts are a collision.
-/

namespace ManagementPlane

open Json (Value)

namespace Envelope

/-- Bytes spell an envelope that carries the digest of the text. -/
def Vouches (bytes : List UInt8) (text : String) : Prop :=
  ∃ e, decode? bytes = some e ∧ e.hash = Text.sha256Hex e.memento.compact ∧ text = e.memento.compact

theorem payload_eq_ok_iff {kind : ObjectKind} {id text : String} {bytes : List UInt8} :
    payload kind id bytes = .ok text ↔ Vouches bytes text := by
  unfold payload Vouches digest
  cases decode? bytes with
  | none => simp
  | some e =>
    dsimp only
    split
    · next hfits =>
      constructor
      · intro h
        exact ⟨e, rfl, hfits.symm, (Except.ok.inj h).symm⟩
      · rintro ⟨e', he, -, rfl⟩
        rw [Option.some.inj he]
    · next hfits =>
      constructor
      · nofun
      · rintro ⟨e', he, hhash, -⟩
        cases he
        exact absurd hhash.symm hfits

end Envelope

/-- The contents of a file can be had, and are an envelope that carries the digest of the text. -/
def FileContents.Vouches (contents : FileContents) (text : String) : Prop :=
  ∃ bytes, contents = .bytes bytes ∧ Envelope.Vouches bytes text

namespace FileStore

variable {s : FileStore} {t : FileTree} {kind k : ObjectKind} {id text : String} {contents : FileContents} {r : Reading}

theorem payload_eq_ok_iff : payload kind id contents = .ok text ↔ contents.Vouches text := by
  cases contents with
  | bytes bytes =>
    rw [payload, Envelope.payload_eq_ok_iff]
    constructor
    · exact fun hv => ⟨bytes, rfl, hv⟩
    · rintro ⟨_, hbytes, hv⟩
      cases hbytes
      exact hv
  | refused e =>
    constructor
    · intro hpayload
      cases hpayload
    · rintro ⟨_, hbytes, -⟩
      cases hbytes

/-- A regular file lies directly in the directory of the kind. -/
def HasFile (s : FileStore) (t : FileTree) (kind : ObjectKind) (name : String) (contents : FileContents) : Prop :=
  ∃ l, t.locate (.ofString (s.directory kind)) = .ok l ∧ t.node? l = some .directory ∧
    t.node? (l ++ [.text name]) = some (.file contents)

/-! ## What the files of a kind show -/

theorem opened_cases (kind : ObjectKind) (id : String) (contents : FileContents) :
    (∃ text, contents.Vouches text ∧ opened kind id contents = .payload kind id text) ∨
      (∀ text, ¬ contents.Vouches text) ∧ ∃ e, opened kind id contents = .unreadable kind id e := by
  unfold opened
  cases h : FileStore.payload kind id contents with
  | ok text => exact .inl ⟨text, payload_eq_ok_iff.1 h, rfl⟩
  | error e =>
    refine .inr ⟨fun text hv => ?_, e, rfl⟩
    rw [payload_eq_ok_iff.2 hv] at h
    cases h

theorem hasFile_unique {name : String} {contents' : FileContents} (h : s.HasFile t kind name contents)
    (h' : s.HasFile t kind name contents') : contents = contents' := by
  obtain ⟨l, hl, -, hfile⟩ := h
  obtain ⟨l', hl', -, hfile'⟩ := h'
  cases hl.symm.trans hl'
  exact FileEntry.file.inj (Option.some.inj (hfile.symm.trans hfile'))

/-- The files of a kind are read, each for the object whose id its name has. -/
theorem mem_readingsOf : r ∈ s.readingsOf t kind ↔
    ∃ id contents, id ≠ "" ∧ s.HasFile t kind (fileName id) contents ∧ r = opened kind id contents := by
  unfold readingsOf HasFile
  constructor
  · intro h
    split at h
    · cases h
    · next l hl =>
      split at h
      · next hdir =>
        obtain ⟨⟨name, contents⟩, he, hreading⟩ := List.mem_filterMap.1 h
        obtain ⟨id, hid, rfl, rfl⟩ := reading?_eq_some_iff.1 hreading
        have hfile := (t.get?_filesIn _ _ _).1 (SortedMap.get?_eq_some_iff.2 he)
        exact ⟨id, contents, hid, ⟨l, hl, hdir, hfile⟩, rfl⟩
      · cases h
  · rintro ⟨id, contents, hid, ⟨l, hl, hdir, hfile⟩, rfl⟩
    rw [hl]
    dsimp only
    rw [if_pos hdir]
    have he := SortedMap.get?_eq_some_iff.1 ((t.get?_filesIn _ _ _).2 hfile)
    exact List.mem_filterMap.2 ⟨_, he, reading?_eq_some_iff.2 ⟨id, hid, rfl, rfl⟩⟩

theorem mem_readings_iff : r ∈ s.readings t ↔
    ∃ kind id contents, id ≠ "" ∧ s.HasFile t kind (fileName id) contents ∧ r = opened kind id contents := by
  unfold readings
  rw [List.mem_flatMap]
  constructor
  · rintro ⟨kind, -, h⟩
    exact ⟨kind, mem_readingsOf.1 h⟩
  · rintro ⟨kind, h⟩
    exact ⟨kind, kind.mem_all, mem_readingsOf.2 h⟩

/-- What is read of a kind comes in the order of the file names. -/
theorem pairwise_readingsOf (s : FileStore) (t : FileTree) (kind : ObjectKind) : (s.readingsOf t kind).Pairwise fun a b =>
    fileName a.about.2 < fileName b.about.2 := by
  unfold readingsOf
  split
  · exact .nil
  · split
    · refine List.pairwise_filterMap.2 ((t.filesIn _).sorted.imp fun {e e'} hlt r hr r' hr' => ?_)
      obtain ⟨id, -, hname, rfl⟩ := reading?_eq_some_iff.1 hr
      obtain ⟨id', -, hname', rfl⟩ := reading?_eq_some_iff.1 hr'
      rw [about_opened, about_opened, ← hname, ← hname']
      exact hlt
    · exact .nil

theorem kind_of_mem_readingsOf (h : r ∈ s.readingsOf t kind) : r.about.1 = kind := by
  obtain ⟨id, contents, -, -, rfl⟩ := mem_readingsOf.1 h
  rw [about_opened]

/-- No object is read twice. -/
theorem nodup_about_readings (s : FileStore) (t : FileTree) : ((s.readings t).map Reading.about).Nodup := by
  refine List.pairwise_map.2 (List.pairwise_flatMap.2 ⟨fun kind _ => ?_, ?_⟩)
  · refine (s.pairwise_readingsOf t kind).imp fun {r r'} hlt he => ?_
    rw [he] at hlt
    exact String.lt_irrefl _ hlt
  · have hall : ObjectKind.all.Nodup := by decide
    refine hall.imp fun {k k'} hne r hr r' hr' he => hne ?_
    rw [← kind_of_mem_readingsOf hr, ← kind_of_mem_readingsOf hr', he]

/-! ## What is taken in -/

theorem filterMap_payloadOf?_readings (s : FileStore) (t : FileTree) (kind : ObjectKind) :
    (s.readings t).filterMap (Reading.payloadOf? kind) = (s.readingsOf t kind).filterMap (Reading.payloadOf? kind) := by
  have hother : ∀ k, k ≠ kind → (s.readingsOf t k).filterMap (Reading.payloadOf? kind) = [] := by
    intro k hk
    refine List.filterMap_eq_nil_iff.2 fun r hr => ?_
    have habout := kind_of_mem_readingsOf hr
    cases r with
    | payload k' id text => exact if_neg fun he => hk (habout.symm.trans he)
    | unreadable => rfl
  unfold readings
  rw [List.filterMap_flatMap]
  cases kind <;> simp [ObjectKind.all, hother]

theorem fst_of_payloadOf? {e : String × String} (h : r.payloadOf? kind = some e) : e.1 = r.about.2 := by
  cases r with
  | payload k id text =>
    rw [Reading.payloadOf?, Option.ite_none_right_eq_some] at h
    rw [← Option.some.inj h.2]
    rfl
  | unreadable => cases h

theorem keys_payloads (s : FileStore) (t : FileTree) (kind : ObjectKind) :
    (((s.source t).payloads.get kind).keys).Pairwise fun a b => fileName a < fileName b := by
  have hpairs : ((s.readingsOf t kind).filterMap (Reading.payloadOf? kind)).Pairwise fun a b =>
      fileName a.1 < fileName b.1 := by
    refine List.pairwise_filterMap.2 ((s.pairwise_readingsOf t kind).imp fun {r r'} hlt e he e' he' => ?_)
    rwa [fst_of_payloadOf? he, fst_of_payloadOf? he']
  have hget : (s.source t).payloads.get kind =
      OrderedMap.ofList ((s.readingsOf t kind).filterMap (Reading.payloadOf? kind)) := by
    show ((s.readings t).foldl Source.putReading ∅).get kind = _
    rw [Source.get_foldl_putReading, filterMap_payloadOf?_readings, PerKind.get_empty]
    rfl
  rw [hget, OrderedMap.keys, OrderedMap.entries_ofList (nodup_of_pairwise hpairs)]
  exact List.pairwise_map.2 hpairs

theorem get?_source_payloads : ((s.source t).payloads.get kind).get? id = some text ↔
    id ≠ "" ∧ ∃ contents, s.HasFile t kind (fileName id) contents ∧ contents.Vouches text := by
  have hagree : ∀ k i a b, .payload k i a ∈ s.readings t → .payload k i b ∈ s.readings t → a = b := by
    intro k i a b ha hb
    have := List.inj_on_of_nodup_map (s.nodup_about_readings t) ha hb rfl
    exact (Reading.payload.inj this).2.2
  rw [show (s.source t).payloads = (s.readings t).foldl Source.putReading ∅ from rfl,
    Source.get?_foldl_putReading hagree, mem_readings_iff]
  constructor
  · rintro ⟨k, i, contents, hi, hfile, he⟩
    rcases opened_cases k i contents with ⟨text', hv, ho⟩ | ⟨-, e, ho⟩
    · cases he.trans ho
      exact ⟨hi, contents, hfile, hv⟩
    · cases he.trans ho
  · rintro ⟨hi, contents, hfile, hv⟩
    refine ⟨kind, id, contents, hi, hfile, ?_⟩
    rcases opened_cases kind id contents with ⟨text', hv', ho⟩ | ⟨hnone, -⟩
    · have hsame := (@payload_eq_ok_iff kind id _ _).2 hv
      rw [payload_eq_ok_iff.2 hv'] at hsame
      rw [ho, Except.ok.inj hsame]
    · exact absurd hv (hnone text)

/-! ## What is told -/

/-- What is told while the store is read. -/
def unreadableNotes (s : FileStore) (t : FileTree) : List Notification :=
  Source.unreadableNotes ((s.readings t).filterMap Reading.failure?)

theorem mem_unreadableNotes {note : Notification} : note ∈ s.unreadableNotes t ↔ ∃ kind id contents e, id ≠ "" ∧
    s.HasFile t kind (fileName id) contents ∧ (∀ text, ¬ contents.Vouches text) ∧
      opened kind id contents = .unreadable kind id e ∧ note = .loadFailed kind (subject kind id) e := by
  unfold unreadableNotes Source.unreadableNotes
  simp only [List.mem_map, List.mem_filterMap, mem_readings_iff]
  constructor
  · rintro ⟨f, ⟨r, ⟨kind, id, contents, hid, hfile, rfl⟩, hf⟩, rfl⟩
    rcases opened_cases kind id contents with ⟨text, -, ho⟩ | ⟨hnone, e, ho⟩
    · rw [ho] at hf
      cases hf
    · rw [ho] at hf
      cases hf
      exact ⟨kind, id, contents, e, hid, hfile, hnone, ho, rfl⟩
  · rintro ⟨kind, id, contents, e, hid, hfile, -, ho, rfl⟩
    exact ⟨(kind, id, e), ⟨_, ⟨kind, id, contents, hid, hfile, rfl⟩, by rw [ho]; rfl⟩, rfl⟩

theorem countP_reports_unreadableNotes (hid : id ≠ "") (hfile : s.HasFile t kind (fileName id) contents)
    (hbad : ∀ text, ¬ contents.Vouches text) : (s.unreadableNotes t).countP (·.reports kind id) = 1 := by
  have hcount : (s.unreadableNotes t).countP (·.reports kind id) =
      (((s.readings t).filterMap Reading.failure?).map fun f => (f.1, f.2.1)).count (kind, id) := by
    unfold unreadableNotes Source.unreadableNotes
    rw [List.countP_map, List.count, List.countP_map]
    apply List.countP_congr
    rintro ⟨k, i, e⟩ -
    have hsubject : subject kind i = subject kind id ↔ i = id := ⟨subject_inj, congrArg _⟩
    have hsame : k = kind ∧ subject k i = subject kind id ↔ k = kind ∧ i = id :=
      and_congr_right fun hk => by rw [hk, hsubject]
    simp [Notification.reports, hsame]
  have hkeys : ((s.readings t).filterMap Reading.failure?).map (fun f => (f.1, f.2.1)) =
      ((s.readings t).filter fun r => r.failure?.isSome).map Reading.about := by
    refine map_key_filterMap (fun r f hf => ?_) _
    cases r with
    | payload => cases hf
    | unreadable =>
      cases hf
      rfl
  rw [hcount, hkeys]
  apply List.count_eq_one_of_mem
  · exact (s.nodup_about_readings t).sublist (List.filter_sublist.map _)
  · obtain ⟨text, hv, -⟩ | ⟨-, e, ho⟩ := opened_cases kind id contents
    · exact absurd hv (hbad text)
    · refine List.mem_map.2 ⟨opened kind id contents, List.mem_filter.2 ⟨?_, by rw [ho]; rfl⟩, about_opened _ _ _⟩
      exact mem_readings_iff.2 ⟨kind, id, contents, hid, hfile, rfl⟩

/-! ## Integrity -/

/-- The raw data are what the files vouch for, in the order of their names. What is told are the other regular files that
bear the name of an object, each once, and nothing else. -/
structure Integrity (s : FileStore) (t : FileTree) (raw : RawData) (notes : List Notification) : Prop where
  payload : ∀ kind id text, (raw.get kind).get? id = some text ↔
    id ≠ "" ∧ ∃ contents, s.HasFile t kind (fileName id) contents ∧ contents.Vouches text
  ordered : ∀ kind, (raw.get kind).keys.Pairwise fun a b => fileName a < fileName b
  reported : ∀ kind id contents, id ≠ "" → s.HasFile t kind (fileName id) contents →
    (∀ text, ¬ contents.Vouches text) → notes.countP (·.reports kind id) = 1
  only : ∀ note ∈ notes, ∃ kind id contents, id ≠ "" ∧ s.HasFile t kind (fileName id) contents ∧
    (∀ text, ¬ contents.Vouches text) ∧ note.reports kind id = true

theorem integrity (s : FileStore) (t : FileTree) : s.Integrity t (s.source t).payloads (s.unreadableNotes t) where
  payload _ _ _ := get?_source_payloads
  ordered := s.keys_payloads t
  reported _ _ _ := countP_reports_unreadableNotes
  only note hnote := by
    obtain ⟨kind, id, contents, e, hid, hfile, hbad, -, rfl⟩ := mem_unreadableNotes.1 hnote
    exact ⟨kind, id, contents, hid, hfile, hbad, by simp [Notification.reports]⟩

/-- A file whose memento has been replaced vouches for nothing, unless the digest is that of both texts. -/
theorem not_vouches_of_replaced {bytes : List UInt8} {e : Envelope} {v : Value}
    (hhash : e.hash = Text.sha256Hex e.memento.compact) (hv : v ≠ e.memento)
    (hsafe : Text.sha256Hex v.compact = Text.sha256Hex e.memento.compact → v.compact = e.memento.compact)
    (hbytes : Envelope.decode? bytes = some { e with memento := v }) (text : String) :
    ¬ (FileContents.bytes bytes).Vouches text := by
  rintro ⟨_, he, e', he', hfits, -⟩
  cases he
  cases hbytes.symm.trans he'
  exact hv (Value.compact_inj (hsafe (hfits.symm.trans hhash)))

/-- For every tree of files, whoever wrote it and whatever bytes it holds: a store reads what its files vouch for, and
reports the others. If the memento of an envelope is replaced by another value, the object is reported and skipped unless
the digests of the two texts collide. -/
theorem load_integrity (s : FileStore) (t : FileTree) : ∃ raw notes, Tells notes raw (s.source t).load ∧
    s.Integrity t raw notes ∧ ∀ (kind : ObjectKind) (id : String) (bytes : List UInt8) (e : Envelope) (v : Value),
      id ≠ "" → s.HasFile t kind (fileName id) (.bytes bytes) → e.hash = Text.sha256Hex e.memento.compact →
      Envelope.decode? bytes = some { e with memento := v } → v ≠ e.memento →
      (Text.sha256Hex v.compact = Text.sha256Hex e.memento.compact → v.compact = e.memento.compact) →
      (raw.get kind).get? id = none ∧ notes.countP (·.reports kind id) = 1 := by
  have hint := s.integrity t
  refine ⟨_, _, tells_load rfl, hint, ?_⟩
  intro kind id bytes e v hid hfile hhash hbytes hv hsafe
  have hbad := not_vouches_of_replaced hhash hv hsafe hbytes
  refine ⟨Option.eq_none_iff_forall_ne_some.2 fun text htext => ?_, hint.reported kind id _ hid hfile hbad⟩
  obtain ⟨-, contents', hfile', hvouches⟩ := (hint.payload kind id text).1 htext
  rw [hasFile_unique hfile' hfile] at hvouches
  exact hbad text hvouches

end FileStore

end ManagementPlane
