import StackMutants.Files.Basic
import StackMutants.Proofs.Conservation
import StackMutants.Proofs.JsonText

/-!
# Proofs.Archives — an archive gives back the outcomes that were stored

Each value that is stored is written as a record, which offers its fields under their names
(`Json.fields?_record`), and is read again from what it is written as (`Outcome.read?_toJson`).  The text in
between loses nothing, since there are no decimal literals in an archive (`Archive.plain_toJson`,
`Json.read?_pretty`).  So an archive gives back what was stored, if the numbers fit their fields
(`Archive.read_text`); those of an archive that was read do (`Archive.fits_of_read`), and those of a run do if
the mutations have numbers that fit (`FreshUnit.fits_of_mem_outcomes`).
-/

namespace StackMutants

/-! ## Records -/

theorem mapM_map_eq_some {α β γ : Type} {write : α → β} {read : β → Option γ} {g : α → γ} {as : List α}
    (h : ∀ a ∈ as, read (write a) = some (g a)) : (as.map write).mapM read = some (as.map g) := by
  induction as with
  | nil => rfl
  | cons a as ih =>
    have has : (as.map write).mapM read = some (as.map g) := ih fun b hb => h b (List.mem_cons_of_mem a hb)
    rw [List.map_cons, List.mapM_cons, h a List.mem_cons_self, has]
    rfl

theorem exists_of_mem_mapM {α β : Type} {read : β → Option α} {bs : List β} {as : List α}
    (h : bs.mapM read = some as) : ∀ a ∈ as, ∃ b, read b = some a := by
  induction bs generalizing as with
  | nil =>
    cases h
    exact nofun
  | cons b bs ih =>
    rw [List.mapM_cons] at h
    obtain ⟨first, hfirst, h⟩ := Option.bind_eq_some_iff.mp h
    obtain ⟨rest, hrest, h⟩ := Option.bind_eq_some_iff.mp h
    cases h
    intro a ha
    rcases List.mem_cons.mp ha with rfl | ha
    · exact ⟨b, hfirst⟩
    · exact ih hrest a ha

namespace Datum

section Pick

variable {ν : Type} {pairs : List (String × ν)}

theorem filter_fst_eq (h : (pairs.map (·.1)).Nodup) {pair : String × ν} (hpair : pair ∈ pairs) :
    pairs.filter (·.1 == pair.1) = [pair] := by
  induction pairs with
  | nil => cases hpair
  | cons first pairs ih =>
    obtain ⟨hfirst, hrest⟩ : first.1 ∉ pairs.map (·.1) ∧ (pairs.map (·.1)).Nodup := List.nodup_cons.mp h
    rcases List.mem_cons.mp hpair with rfl | hpair
    · have hnone : pairs.filter (·.1 == pair.1) = [] := by
        refine List.filter_eq_nil_iff.mpr fun other hother hsame => hfirst ?_
        rw [← eq_of_beq hsame]
        exact List.mem_map_of_mem hother
      have hsame : (pair.1 == pair.1) = true := beq_self_eq_true pair.1
      rw [List.filter_cons, if_pos hsame, hnone]
    · have hother : ¬ (first.1 == pair.1) = true := by
        intro hsame
        rw [eq_of_beq hsame] at hfirst
        exact hfirst (List.mem_map_of_mem hpair)
      rw [List.filter_cons, if_neg hother, ih hrest hpair]

/-- Names that are all different pick the values in their order. -/
theorem pick?_of_nodup (h : (pairs.map (·.1)).Nodup) :
    pick? (pairs.map (·.1)) pairs = some (pairs.map fun pair => some pair.2) := by
  have hpick : ∀ picked : List (String × ν), (∀ pair ∈ picked, pair ∈ pairs) →
      pick? (picked.map (·.1)) pairs = some (picked.map fun pair => some pair.2) := by
    intro picked hmem
    unfold pick?
    refine mapM_map_eq_some fun pair hpair => ?_
    rw [filter_fst_eq h (hmem pair hpair)]
  exact hpick pairs fun _ => id

end Pick

end Datum

namespace Json

theorem namedFields?_record (pairs : List (String × Json)) :
    namedFields? (pairs.map fun pair => (some pair.1, pair.2)) = some pairs := by
  unfold namedFields?
  rw [mapM_map_eq_some fun _ _ => by rfl, List.map_id']

/-- A record offers its fields under their names. -/
theorem fields?_record {names : List String} {pairs : List (String × Json)}
    (hnames : names = pairs.map (·.1)) (hnodup : names.Nodup) :
    Datum.fields? names (record pairs) = some (pairs.map fun pair => some pair.2) := by
  subst hnames
  show (namedFields? (pairs.map fun pair => (some pair.1, pair.2))).bind _ = _
  rw [namedFields?_record]
  exact Datum.pick?_of_nodup hnodup

theorem natBelow?_nat {n bound : Nat} (h : n < bound) : Datum.natBelow? bound (nat n) = some n := by
  simp [Datum.natBelow?, h]

theorem word32?_nat (n : UInt32) : Datum.word32? (nat n.toNat) = some n := by
  simp [Datum.word32?, natBelow?_nat n.toNat_lt_size]

theorem word64?_nat (n : UInt64) : Datum.word64? (nat n.toNat) = some n := by
  simp [Datum.word64?, natBelow?_nat n.toNat_lt_size]

/-- An array is read item by item. -/
theorem list?_array {α : Type} {read : Json → Option α} {write : α → Json} {as : List α}
    (h : ∀ a ∈ as, read (write a) = some a) : Datum.list? read (.array (as.map write)) = some as := by
  show (as.map write).mapM read = some as
  rw [mapM_map_eq_some h, List.map_id']

end Json

/-! ## Outcomes -/

/-- Whether the numbers of an outcome fit the fields that they are stored in. -/
structure Outcome.Fits (o : Outcome) : Prop where
  index : o.mutation.id.index < UInt64.size
  testsRun : o.verdict.testsRun < UInt32.size

instance (o : Outcome) : Decidable o.Fits :=
  decidable_of_iff (o.mutation.id.index < UInt64.size ∧ o.verdict.testsRun < UInt32.size)
    ⟨fun h => ⟨h.1, h.2⟩, fun h => ⟨h.index, h.testsRun⟩⟩

/-- Whatever the environments do, the outcomes of a run can be stored if no mutation has more tests than can be
counted. -/
theorem FreshUnit.fits_of_mem_outcomes {u : FreshUnit} {box : Sandbox} {launches : Launches}
    (h : ∀ m ∈ u.mutations, m.id.index < UInt64.size ∧ m.tests.length < UInt32.size) :
    ∀ o ∈ (u.run box launches).outcomes, o.Fits := by
  intro o ho
  have hmutations : (u.run box launches).outcomes.map (·.mutation) = u.mutations :=
    u.map_mutation_outcomes launches
  have hmutation : o.mutation ∈ u.mutations := by
    rw [← hmutations]
    exact List.mem_map_of_mem ho
  obtain ⟨hindex, htests⟩ := h o.mutation hmutation
  exact ⟨hindex, Nat.lt_of_le_of_lt (testsRun_le_of_mem_outcomes ho) htests⟩

@[simp] theorem ClassName.read?_text (c : ClassName) : ClassName.read? (Json.text c.text) = some c := rfl

theorem CoveringTest.read?_toJson (t : CoveringTest) : CoveringTest.read? t.toJson = some t := by
  unfold CoveringTest.read? toJson
  rw [Json.fields?_record (by rfl) (by decide)]
  simp [Json.word64?_nat]

theorem MutationId.read?_toJson {id : MutationId} (h : id.index < UInt64.size) :
    MutationId.read? id.toJson = some id := by
  unfold MutationId.read? toJson
  rw [Json.fields?_record (by rfl) (by decide)]
  simp [Json.natBelow?_nat h]

theorem Mutation.read?_toJson {m : Mutation} (h : m.id.index < UInt64.size) :
    Mutation.read? m.toJson = some m := by
  unfold Mutation.read? toJson
  rw [Json.fields?_record (by rfl) (by decide)]
  have htests : Datum.list? CoveringTest.read? (Json.array (m.tests.map CoveringTest.toJson)) =
      some m.tests := Json.list?_array fun t _ => t.read?_toJson
  simp [MutationId.read?_toJson h, Json.word32?_nat, htests]

theorem Status.ofName?_name (s : Status) : ofName? s.name = some s := by
  cases s <;> decide

theorem Status.read?_name (s : Status) : Status.read? (Json.text s.name) = some s := by
  show Datum.ofOption (ofName? s.name) = some s
  rw [ofName?_name]
  rfl

theorem optionalText?_elim (note : Option String) :
    optionalText? (note.elim Json.null Json.text) = some note := by
  cases note <;> rfl

theorem Verdict.read?_toJson {v : Verdict} (h : v.testsRun < UInt32.size) :
    Verdict.read? v.toJson = some v := by
  unfold Verdict.read? toJson
  rw [Json.fields?_record (by rfl) (by decide)]
  simp [Json.natBelow?_nat h, Status.read?_name, optionalText?_elim]

theorem Outcome.read?_toJson {o : Outcome} (h : o.Fits) : Outcome.read? o.toJson = some o := by
  unfold Outcome.read? toJson
  rw [Json.fields?_record (by rfl) (by decide)]
  simp [Mutation.read?_toJson h.index, Verdict.read?_toJson h.testsRun]

/-! ## What is read fits -/

section Fits

variable {α : Type} {v : Json}

theorem Datum.needed?_eq_some {read : Json → Option α} {field : Option Json} {a : α}
    (h : Datum.needed? read field = some a) : ∃ v, read v = some a := by
  cases field with
  | none => cases h
  | some v => exact ⟨v, h⟩

theorem Json.lt_of_natBelow? {bound n : Nat} (h : Datum.natBelow? bound v = some n) : n < bound := by
  obtain ⟨k, -, hk⟩ := Option.bind_eq_some_iff.mp h
  split at hk
  · cases hk
    assumption
  · cases hk

theorem Json.exists_of_mem_list? {read : Json → Option α} {as : List α}
    (h : Datum.list? read v = some as) : ∀ a ∈ as, ∃ w, read w = some a := by
  obtain ⟨items, -, h⟩ := Option.bind_eq_some_iff.mp h
  exact exists_of_mem_mapM h

theorem MutationId.index_lt_of_read? {id : MutationId} (h : MutationId.read? v = some id) :
    id.index < UInt64.size := by
  obtain ⟨fields, -, h⟩ := Option.bind_eq_some_iff.mp h
  split at h
  · obtain ⟨_, -, h⟩ := Option.bind_eq_some_iff.mp h
    obtain ⟨_, -, h⟩ := Option.bind_eq_some_iff.mp h
    obtain ⟨_, -, h⟩ := Option.bind_eq_some_iff.mp h
    obtain ⟨_, -, h⟩ := Option.bind_eq_some_iff.mp h
    obtain ⟨index, hindex, h⟩ := Option.bind_eq_some_iff.mp h
    cases h
    obtain ⟨w, hw⟩ := Datum.needed?_eq_some hindex
    exact Json.lt_of_natBelow? hw
  · cases h

theorem Mutation.index_lt_of_read? {m : Mutation} (h : Mutation.read? v = some m) :
    m.id.index < UInt64.size := by
  obtain ⟨fields, -, h⟩ := Option.bind_eq_some_iff.mp h
  split at h
  · obtain ⟨id, hid, h⟩ := Option.bind_eq_some_iff.mp h
    obtain ⟨_, -, h⟩ := Option.bind_eq_some_iff.mp h
    obtain ⟨_, -, h⟩ := Option.bind_eq_some_iff.mp h
    obtain ⟨_, -, h⟩ := Option.bind_eq_some_iff.mp h
    cases h
    obtain ⟨w, hw⟩ := Datum.needed?_eq_some hid
    exact MutationId.index_lt_of_read? hw
  · cases h

theorem Verdict.testsRun_lt_of_read? {verdict : Verdict} (h : Verdict.read? v = some verdict) :
    verdict.testsRun < UInt32.size := by
  obtain ⟨fields, -, h⟩ := Option.bind_eq_some_iff.mp h
  split at h
  · obtain ⟨testsRun, htestsRun, h⟩ := Option.bind_eq_some_iff.mp h
    obtain ⟨_, -, h⟩ := Option.bind_eq_some_iff.mp h
    obtain ⟨_, -, h⟩ := Option.bind_eq_some_iff.mp h
    cases h
    obtain ⟨w, hw⟩ := Datum.needed?_eq_some htestsRun
    exact Json.lt_of_natBelow? hw
  · cases h

theorem Outcome.fits_of_read? {o : Outcome} (h : Outcome.read? v = some o) : o.Fits := by
  obtain ⟨fields, -, h⟩ := Option.bind_eq_some_iff.mp h
  split at h
  · obtain ⟨mutation, hmutation, h⟩ := Option.bind_eq_some_iff.mp h
    obtain ⟨verdict, hverdict, h⟩ := Option.bind_eq_some_iff.mp h
    cases h
    obtain ⟨w, hw⟩ := Datum.needed?_eq_some hmutation
    obtain ⟨w', hw'⟩ := Datum.needed?_eq_some hverdict
    exact ⟨Mutation.index_lt_of_read? hw, Verdict.testsRun_lt_of_read? hw'⟩
  · cases h

end Fits

/-! ## What is written -/

namespace Json

theorem plain_record {pairs : List (String × Json)} (h : ∀ pair ∈ pairs, pair.2.Plain) :
    (record pairs).Plain := by
  show everywhereInFields isPlain (pairs.map fun pair => (some pair.1, pair.2)) = true
  induction pairs with
  | nil => rfl
  | cons pair pairs ih =>
    have hfirst : pair.2.everywhere isPlain = true := h pair List.mem_cons_self
    have hrest := ih fun other hother => h other (List.mem_cons_of_mem pair hother)
    simp [everywhereInFields, hfirst, hrest]

theorem plain_array {α : Type} {write : α → Json} (h : ∀ a, (write a).Plain) (as : List α) :
    (Json.array (as.map write)).Plain := by
  show everywhereInItems isPlain (as.map write) = true
  induction as with
  | nil => rfl
  | cons a as ih =>
    have hfirst : (write a).everywhere isPlain = true := h a
    simp [everywhereInItems, hfirst, ih]

theorem plain_text (s : String) : (text s).Plain := rfl

theorem plain_nat (n : Nat) : (nat n).Plain := rfl

end Json

open Json

theorem CoveringTest.plain_toJson (t : CoveringTest) : t.toJson.Plain :=
  plain_record (by simp [plain_text, plain_nat])

theorem Mutation.plain_toJson (m : Mutation) : m.toJson.Plain := by
  have hid : m.id.toJson.Plain := plain_record (by simp [plain_text, plain_nat])
  have htests := plain_array CoveringTest.plain_toJson m.tests
  exact plain_record (by simp [plain_text, plain_nat, hid, htests])

theorem Verdict.plain_toJson (v : Verdict) : v.toJson.Plain := by
  have hnote : (v.note.elim Json.null Json.text).Plain := by
    cases v.note <;> rfl
  exact plain_record (by simp [plain_text, plain_nat, hnote])

theorem Outcome.plain_toJson (o : Outcome) : o.toJson.Plain :=
  plain_record (by simp [o.mutation.plain_toJson, o.verdict.plain_toJson])

/-! ## Archives -/

namespace Archive

theorem plain_toJson (os : List Outcome) : (toJson os).Plain := by
  have hresults := plain_array Outcome.plain_toJson os
  exact plain_record (by simp [plain_nat, hresults])

variable {os : List Outcome}

theorem ofJson?_toJson (h : ∀ o ∈ os, o.Fits) : ofJson? (toJson os) = some (version, os) := by
  unfold ofJson? toJson
  rw [Json.fields?_record (by rfl) (by decide)]
  have hresults : Datum.list? Outcome.read? (Json.array (os.map Outcome.toJson)) = some os :=
    Json.list?_array fun o ho => Outcome.read?_toJson (h o ho)
  have hversion : Datum.natBelow? UInt32.size (Json.nat version) = some version :=
    Json.natBelow?_nat (by decide)
  simp [hversion, hresults]

theorem read_text (h : ∀ o ∈ os, o.Fits) (file : String) : read file (text os) = .ok os := by
  unfold read text
  rw [String.toList_ofList, read?_pretty (plain_toJson os), Option.bind_some, ofJson?_toJson h]
  exact if_pos rfl

theorem fits_of_ofJson? {v : Json} {found : Nat} (h : ofJson? v = some (found, os)) :
    ∀ o ∈ os, o.Fits := by
  obtain ⟨fields, -, h⟩ := Option.bind_eq_some_iff.mp h
  split at h
  · obtain ⟨_, -, h⟩ := Option.bind_eq_some_iff.mp h
    obtain ⟨results, hresults, h⟩ := Option.bind_eq_some_iff.mp h
    cases h
    obtain ⟨w, hw⟩ := Datum.needed?_eq_some hresults
    intro o ho
    obtain ⟨_, hread⟩ := Json.exists_of_mem_list? hw o ho
    exact Outcome.fits_of_read? hread
  · cases h

theorem fits_of_read {file source : String} (h : read file source = .ok os) : ∀ o ∈ os, o.Fits := by
  unfold read at h
  split at h
  · cases h
  · rename_i found outcomes hvalue
    split at h
    · cases h
      obtain ⟨v, -, hv⟩ := Option.bind_eq_some_iff.mp hvalue
      exact fits_of_ofJson? hv
    · cases h

/-- **Which outcomes come back from their archive**: those whose numbers fit. -/
theorem read_text_eq_ok_iff (file : String) : read file (text os) = .ok os ↔ ∀ o ∈ os, o.Fits :=
  ⟨fits_of_read, fun h => read_text h file⟩

/-- What was read from an archive can be stored again. -/
theorem read_text_of_read {file source : String} (h : read file source = .ok os) (file' : String) :
    read file' (text os) = .ok os :=
  read_text (fits_of_read h) file'

end Archive

/-! ## Files -/

namespace Files

variable {σ : Type} {files : Files (StateM σ)}

/-- Whether a file that has been replaced holds the text that was put into it. -/
def Keeps (files : Files (StateM σ)) : Prop :=
  ∀ path text s s', (files.write path text).run s = (.ok (), s') →
    ∃ s'', (files.read path).run s' = (.ok text.toUTF8, s'')

variable {path : String} {s s' : σ}

theorem run_readText {text : String} (h : (files.read path).run s = (.ok text.toUTF8, s')) :
    (files.readText path).run s = (.ok text, s') := by
  have hdecode : String.fromUTF8? text.toUTF8 = some text := dif_pos text.isValidUTF8
  have hread : (files.read path).run s = (pure (.ok text.toUTF8, s') : Id _) := h
  unfold readText
  rw [StateT.run_bind, hread, pure_bind]
  simp only [hdecode]
  rfl

theorem run_write_of_run_storeArchive {os : List Outcome}
    (h : (files.storeArchive path os).run s = (.ok (), s')) :
    (files.write path (Archive.text os)).run s = (.ok (), s') := by
  unfold storeArchive at h
  rw [StateT.run_bind] at h
  cases hwrite : (files.write path (Archive.text os)).run s with
  | mk written s'' =>
    rw [hwrite] at h
    cases written with
    | error reason => cases h
    | ok _ =>
      cases h
      rfl

theorem loadArchive_of_storeArchive (h : files.Keeps) {os : List Outcome} (hos : ∀ o ∈ os, o.Fits)
    (hstore : (files.storeArchive path os).run s = (.ok (), s')) :
    ((files.loadArchive path).run s').1 = .ok os := by
  obtain ⟨s'', hread⟩ := h path (Archive.text os) s s' (run_write_of_run_storeArchive hstore)
  unfold loadArchive
  rw [StateT.run_bind, run_readText hread]
  show ((pure (Archive.read path (Archive.text os)) : StateM σ _).run s'').1 = _
  rw [Archive.read_text hos path, StateT.run_pure]
  rfl

end Files

/-- **An archive gives back the outcomes that were stored**, every field of them, whatever their texts are:
from its text, and from the file that the text was put into. -/
theorem archive_gives_back {os : List Outcome} (hos : ∀ o ∈ os, o.Fits) :
    (∀ file, Archive.read file (Archive.text os) = .ok os) ∧
    ∀ {σ : Type} (files : Files (StateM σ)), files.Keeps → ∀ path s s',
      (files.storeArchive path os).run s = (.ok (), s') →
      ((files.loadArchive path).run s').1 = .ok os :=
  ⟨Archive.read_text hos, fun _ hfiles _ _ _ hstore => Files.loadArchive_of_storeArchive hfiles hos hstore⟩

/-- Files that are kept in memory. -/
def memoryFiles : Files (StateM (String → Option ByteArray)) where
  read path := do
    match (← get) path with
    | some bytes => pure (.ok bytes)
    | none => pure (.error "no such file")
  write path text := do
    modify fun held other => if other = path then some text.toUTF8 else held other
    pure (.ok ())

theorem keeps_memoryFiles : memoryFiles.Keeps := by
  rintro path text s s' ⟨⟩
  refine ⟨fun other => if other = path then some text.toUTF8 else s other, ?_⟩
  show StateT.run (match (if path = path then some text.toUTF8 else s path) with
    | some bytes => pure (Except.ok bytes)
    | none => pure (Except.error "no such file")) _ = _
  rw [if_pos rfl]
  rfl

/-- Outcomes with escapes in their texts and with the greatest numbers. -/
def awkwardOutcomes : List Outcome :=
  [{ mutation := {
      id := ⟨⟨"a\"b\\c/d"⟩, "\x00\x1f\n\t", "(\x08\x0c\r)\x7f", "\\u0041 é 𝕊", UInt64.size - 1⟩
      line := 0xffffffff
      description := ""
      tests := [⟨"\u2028", ⟨"[1, 2]"⟩, 0xffffffffffffffff⟩, ⟨"\\", ⟨"\""⟩, 0⟩] }
     verdict := { status := .killed, testsRun := UInt32.size - 1, note := some "\x1b[0m" } },
   .notStarted { id := ⟨⟨""⟩, "", "", "", 0⟩, line := 0, description := "no test" }]

theorem archive_gives_back_awkwardOutcomes :
    (∀ o ∈ awkwardOutcomes, o.Fits) ∧ memoryFiles.Keeps ∧
    Archive.read "history.json" (Archive.text awkwardOutcomes) = .ok awkwardOutcomes ∧
    ∃ held, (memoryFiles.storeArchive "history.json" awkwardOutcomes).run (fun _ => none) = (.ok (), held) ∧
      ((memoryFiles.loadArchive "history.json").run held).1 = .ok awkwardOutcomes := by
  have hos : ∀ o ∈ awkwardOutcomes, o.Fits := by decide
  obtain ⟨htext, hfiles⟩ := archive_gives_back hos
  exact ⟨hos, keeps_memoryFiles, htext _, _, rfl, hfiles memoryFiles keeps_memoryFiles _ _ _ rfl⟩

end StackMutants
