import Mathlib.Data.List.Forall2
import TextStore.Data.Datum

/-!
# What a record says, whatever it looks like

* `Key.Foreign` : a key that means nothing to a record;
* `Varies value value'` : `value'` has the content of `value`. The entries of a record may stand in
  another order and foreign ones may stand among them, at any depth;
* `Presents names entries fields` : the entries are those of `fields`, in any order and among entries
  foreign to a record with the fields `names`. This is what a varied record does
  (`Varies.presents`), also when fields are removed (`Presents.without`) or changed
  (`Presents.alter`);
* `Presents.tagged?`, `Presents.read` : the kind and the fields that are read from such entries.
-/

namespace TextStore

/-- A key that means nothing to a record with these keys. An index stands for a place in the record,
so it has to lie past the end. -/
def Key.Foreign (keys : List Key) : Key → Prop
  | .name label => .name label ∉ keys
  | .index n => keys.length ≤ n
  | .other => False

theorem Key.Foreign.tail {key first : Key} {rest : List Key} (h : key.Foreign (first :: rest)) :
    key.Foreign rest := by
  cases key with
  | name label => exact fun hmem => h (List.mem_cons_of_mem _ hmem)
  | index n => exact Nat.le_of_succ_le h
  | other => exact h

/-- Whether the key is one of these names. -/
def Key.isAmong (names : List String) : Key → Bool
  | .name label => names.contains label
  | _ => false

namespace Datum

/-- A field as an entry. -/
def entry (field : String × Datum) : Key × Datum := (.name field.1, field.2)

/-- A record without the fields of these names. -/
def without (gone : List String) : Datum → Datum
  | map entries => map (entries.filter fun e => !e.1.isAmong gone)
  | value => value

/-- Changes the value under one key. -/
def alterAt {κ : Type} [DecidableEq κ] (key : κ) (f : Datum → Datum) (e : κ × Datum) : κ × Datum :=
  (e.1, if e.1 = key then f e.2 else e.2)

/-- A record with the value of one field changed. -/
def alter (name : String) (f : Datum → Datum) : Datum → Datum
  | map entries => map (entries.map (alterAt (.name name) f))
  | value => value

theorem without_nil (value : Datum) : value.without [] = value := by
  have hnone : ∀ key : Key, key.isAmong [] = false := fun key => by cases key <;> rfl
  cases value with
  | map entries => simp [without, hnone]
  | _ => rfl

theorem alter_of_eq {f : Datum → Datum} (hf : ∀ value, f value = value) (name : String)
    (value : Datum) : value.alter name f = value := by
  have hsame : alterAt (Key.name name) f = id := by
    funext e
    simp [alterAt, hf]
  cases value with
  | map entries => rw [alter, hsame, List.map_id]
  | _ => rfl

/-! ## Other forms of the same content -/

/-- The second value has the content of the first. -/
inductive Varies : Datum → Datum → Prop
  | same (value : Datum) : Varies value value
  | list {items items' : List Datum} (each : List.Forall₂ Varies items items') :
      Varies (.list items) (.list items')
  /-- The values vary on their own, foreign entries are added, and all are put in any order. -/
  | map {entries added shuffled : List (Key × Datum)} {values : List Datum}
      (each : List.Forall₂ Varies (entries.map Prod.snd) values)
      (foreign : ∀ e ∈ added, e.1.Foreign (entries.map Prod.fst))
      (order : shuffled.Perm ((entries.map Prod.fst).zip values ++ added)) :
      Varies (.map entries) (.map shuffled)

/-- A value without parts. -/
def isPlain : Datum → Bool
  | list _ => false
  | map _ => false
  | _ => true

theorem Varies.of_isPlain {value value' : Datum} (h : Varies value value')
    (hplain : value.isPlain = true) : value' = value := by
  cases h with
  | same => rfl
  | list each => cases hplain
  | map each foreign order => cases hplain

theorem Varies.of_list {items : List Datum} {value : Datum} (h : Varies (.list items) value) :
    ∃ items', value = .list items' ∧ List.Forall₂ Varies items items' := by
  cases h with
  | same => exact ⟨items, rfl, List.forall₂_same.2 fun item _ => .same item⟩
  | list each => exact ⟨_, rfl, each⟩

/-- Values without parts do not vary. -/
theorem eq_of_forall₂ {values values' : List Datum} (h : List.Forall₂ Varies values values')
    (hplain : ∀ value ∈ values, value.isPlain = true) : values' = values := by
  induction h with
  | nil => rfl
  | @cons value value' rest rest' hvalue _ ih =>
    rw [hvalue.of_isPlain (hplain value List.mem_cons_self),
      ih fun v hv => hplain v (List.mem_cons_of_mem _ hv)]

/-! ## Entries in any order -/

/-- The entries are those of the fields, among others that mean nothing to a record with the fields
`names`. -/
def Presents (names : List String) (entries : List (Key × Datum)) (fields : List (String × Datum)) :
    Prop :=
  ∃ added, (∀ e ∈ added, e.1.Foreign (names.map Key.name)) ∧
    entries.Perm (fields.map entry ++ added)

theorem zip_map_fst_snd (fields : List (String × Datum)) :
    (fields.map Prod.fst).zip (fields.map Prod.snd) = fields := by
  rw [List.zip_map', List.map_id'']
  exact fun _ => rfl

theorem fst_map_entry (fields : List (String × Datum)) :
    (fields.map entry).map Prod.fst = (fields.map Prod.fst).map Key.name := by
  rw [List.map_map, List.map_map]
  rfl

theorem snd_map_entry (fields : List (String × Datum)) :
    (fields.map entry).map Prod.snd = fields.map Prod.snd := by
  rw [List.map_map]
  rfl

theorem zip_map_entry (fields : List (String × Datum)) (values : List Datum) :
    ((fields.map entry).map Prod.fst).zip values =
      ((fields.map Prod.fst).zip values).map entry := by
  rw [fst_map_entry, List.zip_map_left]
  rfl

/-- For instance, the entries may all stand in reverse. -/
theorem Varies.reversed {fields : List (String × Datum)} {values : List Datum}
    (added : List (Key × Datum)) (each : List.Forall₂ Varies (fields.map Prod.snd) values)
    (foreign : ∀ e ∈ added, e.1.Foreign ((fields.map Prod.fst).map Key.name)) :
    Varies (record fields)
      (.map (((fields.map Prod.fst).zip values).map entry ++ added).reverse) := by
  rw [← snd_map_entry] at each
  rw [← fst_map_entry] at foreign
  rw [← zip_map_entry]
  exact .map each foreign (List.reverse_perm _)

/-- A varied record presents its fields, with varied values. -/
theorem Varies.presents {fields : List (String × Datum)} {value : Datum}
    (h : Varies (record fields) value) :
    ∃ entries values, value = .map entries ∧ List.Forall₂ Varies (fields.map Prod.snd) values ∧
      Presents (fields.map Prod.fst) entries ((fields.map Prod.fst).zip values) := by
  rw [show record fields = .map (fields.map entry) from rfl] at h
  cases h with
  | same =>
    refine ⟨_, fields.map Prod.snd, rfl, List.forall₂_same.2 fun v _ => .same v, [], nofun, ?_⟩
    rw [zip_map_fst_snd, List.append_nil]
  | @map _ added shuffled values each foreign order =>
    rw [snd_map_entry] at each
    rw [fst_map_entry] at foreign
    rw [zip_map_entry] at order
    exact ⟨shuffled, values, rfl, each, added, foreign, order⟩

/-- A varied record of values without parts presents its fields as they are. -/
theorem Varies.presents_plain {fields : List (String × Datum)} {value : Datum}
    (h : Varies (record fields) value) (hplain : ∀ field ∈ fields, field.2.isPlain = true) :
    ∃ entries, value = .map entries ∧ Presents (fields.map Prod.fst) entries fields := by
  obtain ⟨entries, values, rfl, heach, hpresents⟩ := h.presents
  have hsame := eq_of_forall₂ heach (List.forall_mem_map.2 hplain)
  rw [hsame, zip_map_fst_snd] at hpresents
  exact ⟨entries, rfl, hpresents⟩

theorem tagged?_of_splitKey {key kind : String} {entries : List (Key × Datum)}
    (h : (splitKey key entries).1 = [.text kind]) :
    tagged? key (.map entries) = some (kind, .map (splitKey key entries).2) := by
  rcases hsplit : splitKey key entries with ⟨tags, rest⟩
  rw [hsplit] at h
  cases h
  simp only [tagged?, hsplit]

namespace Presents

variable {names : List String} {entries : List (Key × Datum)} {fields : List (String × Datum)}

theorem without (h : Presents names entries fields) (gone : List String) :
    Presents names (entries.filter fun e => !e.1.isAmong gone)
      (fields.filter fun field => !gone.contains field.1) := by
  obtain ⟨added, hforeign, horder⟩ := h
  refine ⟨added.filter fun e => !e.1.isAmong gone, ?_, ?_⟩
  · exact fun e he => hforeign e (List.mem_of_mem_filter he)
  · have hfilter := horder.filter fun e => !e.1.isAmong gone
    rw [List.filter_append, List.filter_map] at hfilter
    exact hfilter

theorem alter (h : Presents names entries fields) (name : String) (f : Datum → Datum) :
    Presents names (entries.map (alterAt (.name name) f)) (fields.map (alterAt name f)) := by
  obtain ⟨added, hforeign, horder⟩ := h
  have hcomm : alterAt (.name name) f ∘ entry = entry ∘ alterAt name f := by
    funext field
    simp [alterAt, entry]
  refine ⟨added.map (alterAt (.name name) f), ?_, ?_⟩
  · intro e he
    obtain ⟨old, hold, rfl⟩ := List.mem_map.1 he
    exact hforeign old hold
  · have hmap := horder.map (alterAt (.name name) f)
    rw [List.map_append, List.map_map, hcomm, ← List.map_map] at hmap
    exact hmap

/-- The kind is read, and the rest presents the other fields. -/
theorem tagged? {key kind : String}
    (h : Presents (key :: names) entries ((key, .text kind) :: fields))
    (hkey : key ∉ fields.map Prod.fst) :
    ∃ rest, Datum.tagged? key (.map entries) = some (kind, .map rest) ∧
      Presents names rest fields := by
  obtain ⟨added, hforeign, horder⟩ := h
  -- a second entry under the key would be a foreign one or a field, and is neither
  have hothers : ∀ e ∈ fields.map entry ++ added, e.1 ≠ .name key := by
    intro e he heq
    rcases List.mem_append.1 he with hfield | hadded
    · obtain ⟨field, hmem, rfl⟩ := List.mem_map.1 hfield
      cases heq
      exact hkey (List.mem_map_of_mem hmem)
    · have hnot := hforeign e hadded
      rw [heq] at hnot
      exact hnot List.mem_cons_self
  have hnone : (fields.map entry ++ added).filter (fun e => e.1 == .name key) = [] :=
    List.filter_eq_nil_iff.2 fun e he => by simpa using hothers e he
  have hall : (fields.map entry ++ added).filter (fun e => e.1 != .name key) =
      fields.map entry ++ added :=
    List.filter_eq_self.2 fun e he => by simpa using hothers e he
  rw [List.map_cons, List.cons_append] at horder
  refine ⟨(splitKey key entries).2, tagged?_of_splitKey ?_, added,
    fun e he => (hforeign e he).tail, ?_⟩
  · have htag := horder.filter fun e => e.1 == .name key
    rw [List.filter_cons_of_pos (by simp [entry]), hnone, List.perm_singleton] at htag
    rw [splitKey, htag]
    rfl
  · have hrest := horder.filter fun e => e.1 != .name key
    rw [List.filter_cons_of_neg (by simp [entry]), hall] at hrest
    exact hrest

end Presents

/-! ## Reading -/

theorem lookup_eq_some_iff_mem {fields : List (String × Datum)} (hnodup : (fields.map Prod.fst).Nodup)
    {name : String} {value : Datum} :
    fields.lookup name = some value ↔ (name, value) ∈ fields := by
  constructor
  · intro hlookup
    obtain ⟨before, after, rfl, -⟩ := List.lookup_eq_some_iff.1 hlookup
    exact List.mem_append_right _ List.mem_cons_self
  · intro hmem
    obtain ⟨before, after, rfl⟩ := List.append_of_mem hmem
    refine List.lookup_eq_some_iff.2 ⟨before, after, rfl, fun field hfield => ?_⟩
    rw [List.map_append, List.nodup_append] at hnodup
    have hne := hnodup.2.2 field.1 (List.mem_map_of_mem hfield) name List.mem_cons_self
    simpa using hne.symm

/-- The order of the fields does not matter. -/
theorem lookup_of_perm {fields fields' : List (String × Datum)} (hperm : fields.Perm fields')
    (hnodup : (fields'.map Prod.fst).Nodup) (name : String) :
    fields.lookup name = fields'.lookup name := by
  have hnodup' : (fields.map Prod.fst).Nodup := (hperm.map Prod.fst).nodup_iff.2 hnodup
  ext value
  rw [lookup_eq_some_iff_mem hnodup, lookup_eq_some_iff_mem hnodup', hperm.mem_iff]

/-- A removed field is not found, and the others are found as before. -/
theorem lookup_filter_not_contains (gone : List String) (fields : List (String × Datum))
    (name : String) :
    (fields.filter fun field => !gone.contains field.1).lookup name =
      if gone.contains name then none else fields.lookup name := by
  induction fields with
  | nil => exact (ite_self none).symm
  | cons field rest ih =>
    obtain ⟨label, value⟩ := field
    rcases eq_or_ne name label with rfl | hne
    · cases hgone : gone.contains name with
      | false =>
        rw [List.filter_cons_of_pos (by rw [hgone]; rfl), if_neg Bool.false_ne_true,
          List.lookup_cons_self, List.lookup_cons_self]
      | true =>
        rw [List.filter_cons_of_neg (by rw [hgone]; exact Bool.false_ne_true), ih, hgone]
        rfl
    · have hother : ((label, value) :: rest).lookup name = rest.lookup name := by
        simp only [List.lookup_cons, beq_false_of_ne hne]
      rw [hother, ← ih, List.filter_cons]
      split
      · simp only [List.lookup_cons, beq_false_of_ne hne]
      · rfl

/-- The field that an entry gives to a record with the fields `names`. -/
def fieldAt? (names : List String) (e : Key × Datum) : Option (String × Datum) :=
  ((fieldOf? names e.1).getD none).map fun name => (name, e.2)

/-- Entries that give no field twice are read as the fields that they give. -/
theorem knownFields?_of_nodup {names : List String} {entries : List (Key × Datum)}
    (hlegal : ∀ e ∈ entries, fieldOf? names e.1 ≠ none)
    (hnodup : ((entries.filterMap (fieldAt? names)).map Prod.fst).Nodup) :
    knownFields? names entries = some (entries.filterMap (fieldAt? names)) := by
  induction entries with
  | nil => rfl
  | cons e rest ih =>
    -- the later entries are read first, and a field given twice shows up among theirs
    have hlegal' := fun e' he' => hlegal e' (List.mem_cons_of_mem e he')
    obtain ⟨field?, hfield⟩ := Option.ne_none_iff_exists'.1 (hlegal e List.mem_cons_self)
    cases field? with
    | none =>
      have hat : fieldAt? names e = none := by rw [fieldAt?, hfield]; rfl
      rw [List.filterMap_cons_none hat] at hnodup ⊢
      simp only [knownFields?, hfield, ih hlegal' hnodup]
    | some name =>
      have hat : fieldAt? names e = some (name, e.2) := by rw [fieldAt?, hfield]; rfl
      rw [List.filterMap_cons_some hat] at hnodup ⊢
      obtain ⟨hnot, hnodup⟩ := List.nodup_cons.1 hnodup
      have hlookup : (rest.filterMap (fieldAt? names)).lookup name = none := by
        rw [List.lookup_eq_none_iff]
        intro field hmem
        rw [bne_iff_ne]
        rintro rfl
        exact hnot (List.mem_map.2 ⟨field, hmem, rfl⟩)
      simp only [knownFields?, hfield, ih hlegal' hnodup, hlookup, Option.isSome_none,
        Bool.false_eq_true, if_false]

theorem fieldOf?_of_foreign {names : List String} {key : Key}
    (h : key.Foreign (names.map Key.name)) : fieldOf? names key = some none := by
  cases key with
  | name label =>
    have hnot : label ∉ names := fun hmem => h (List.mem_map_of_mem hmem)
    simp [fieldOf?, hnot]
  | index n =>
    have hle : names.length ≤ n := by simpa [Key.Foreign] using h
    rw [fieldOf?, List.getElem?_eq_none hle]
  | other => exact h.elim

theorem fieldOf?_of_mem {names : List String} {name : String} (h : name ∈ names) :
    fieldOf? names (.name name) = some (some name) := by
  simp [fieldOf?, h]

namespace Presents

variable {names : List String} {entries : List (Key × Datum)} {fields : List (String × Datum)}

/-- Entries that present fields of a record are read as these fields. -/
theorem read (h : Presents names entries fields) (hnodup : names.Nodup)
    (hsub : (fields.map Prod.fst).Sublist names) :
    ∃ read, knownFields? names entries = some read ∧
      ∀ name, read.lookup name = fields.lookup name := by
  obtain ⟨added, hforeign, horder⟩ := h
  have hmem : ∀ field ∈ fields, field.1 ∈ names :=
    fun field hfield => hsub.subset (List.mem_map_of_mem hfield)
  have hfields : (fields.map entry).filterMap (fieldAt? names) = fields := by
    have hat : ∀ field ∈ fields, (fieldAt? names ∘ entry) field = some field := by
      intro field hfield
      simp only [Function.comp_apply, fieldAt?, entry, fieldOf?_of_mem (hmem field hfield)]
      rfl
    rw [List.filterMap_map, List.filterMap_congr hat, List.filterMap_some]
  have hadded : added.filterMap (fieldAt? names) = [] := by
    refine List.filterMap_eq_nil_iff.2 fun e he => ?_
    rw [fieldAt?, fieldOf?_of_foreign (hforeign e he)]
    rfl
  have hperm := horder.filterMap (fieldAt? names)
  rw [List.filterMap_append, hfields, hadded, List.append_nil] at hperm
  have hdistinct : (fields.map Prod.fst).Nodup := hsub.nodup hnodup
  refine ⟨_, knownFields?_of_nodup ?_ ((hperm.map Prod.fst).nodup_iff.2 hdistinct),
    lookup_of_perm hperm hdistinct⟩
  intro e he
  rcases List.mem_append.1 (horder.subset he) with hknown | hnew
  · obtain ⟨field, hfield, rfl⟩ := List.mem_map.1 hknown
    simp [entry, fieldOf?_of_mem (hmem field hfield)]
  · simp [fieldOf?_of_foreign (hforeign e hnew)]

end Presents

end Datum

end TextStore
