import TextStore.Data.Script
import TextStore.Data.Settings
import TextStore.Proofs.Data.Records

/-!
# Scripts and settings survive being written down

* `Script.decode?_of_varies` : a script is read back from what was written, with the entries of
  every record in any order and among foreign ones;
* `Settings.decode?_without` : settings are read back in the same way, and fields that were removed
  are at their defaults (`Settings.reset`);
* `encodings_read_back` : both, of everything whose numbers are machine words (`Fits`).

Step by step: an entry is read as a word, a text or a truth value (`wordField?_of_lookup` and its
like), the entries of a step as the step (`ofTagged?_of_presents`), and a list of steps by induction.
-/

namespace TextStore

/-! ## Steps -/

theorem Datum.word?_nat {n : Nat} (h : n < wordRange) : Datum.word? (.nat n) = some n := by
  have hrange : 0 ≤ (n : Int) ∧ (n : Int) < wordRange :=
    ⟨Int.natCast_nonneg n, by exact_mod_cast h⟩
  simp only [Datum.nat, Datum.word?, if_pos hrange, Int.toNat_natCast]

namespace Step

/-- The numbers of a step. -/
def numbers : Step → List Nat
  | insert pos _ => [pos]
  | erase start stop => [start, stop]
  | replace start stop _ => [start, stop]
  | cleanup maxAgeMs => [maxAgeMs]
  | pause ms => [ms]
  | _ => []

/-- The numbers are machine words. -/
def Fits (step : Step) : Prop := ∀ n ∈ step.numbers, n < wordRange

theorem isPlain_fields (step : Step) : ∀ field ∈ step.fields, field.2.isPlain = true := by
  cases step <;> simp [fields, Datum.isPlain, Datum.nat]

theorem nodup_fields (step : Step) : (step.fields.map Prod.fst).Nodup := by
  cases step <;> simp [fields]

theorem tagKey_not_mem (step : Step) : tagKey ∉ step.fields.map Prod.fst := by
  cases step <;> simp [fields, tagKey]

theorem textField?_of_lookup {read : List (String × Datum)} {name text : String}
    (h : read.lookup name = some (.text text)) : textField? read name = some text := by
  rw [textField?, h]
  rfl

theorem wordField?_of_lookup {read : List (String × Datum)} {name : String} {n : Nat}
    (h : read.lookup name = some (.nat n)) (hn : n < wordRange) :
    wordField? read name = some n := by
  rw [wordField?, h, Option.bind_some]
  exact Datum.word?_nat hn

theorem boolField?_of_lookup {read : List (String × Datum)} {name : String} {b : Bool}
    (h : read.lookup name = some (.bool b)) : boolField? read name = some b := by
  rw [boolField?, h]
  rfl

theorem named?_of_read {make : String → Step} {body : Datum} {read : List (String × Datum)}
    {name : String} (hread : body.fields? ["name"] = some read)
    (hname : read.lookup "name" = some (.text name)) : named? make body = some (make name) := by
  simp [named?, hread, textField?_of_lookup hname]

/-- Entries that present the fields of a step are read as the step. -/
theorem ofTagged?_of_presents {step : Step} {entries : List (Key × Datum)} (hfits : step.Fits)
    (h : Datum.Presents (step.fields.map Prod.fst) entries step.fields) :
    ofTagged? step.kindName (.map entries) = some step := by
  obtain ⟨read, hread, hlookup⟩ := h.read step.nodup_fields (List.Sublist.refl _)
  have hbody : Datum.fields? (step.fields.map Prod.fst) (.map entries) = some read := hread
  -- The name of a kind decides which fields are read, so each kind is read on its own.
  cases step with
  | create name =>
    simp only [kindName, ofTagged?]
    exact named?_of_read hbody (by simp [hlookup, fields])
  | switch name =>
    simp only [kindName, ofTagged?]
    exact named?_of_read hbody (by simp [hlookup, fields])
  | rename name =>
    simp only [kindName, ofTagged?]
    exact named?_of_read hbody (by simp [hlookup, fields])
  | delete name =>
    simp only [kindName, ofTagged?]
    exact named?_of_read hbody (by simp [hlookup, fields])
  | insert pos text =>
    simp only [fields, List.map] at hbody
    have hpos : wordField? read "pos" = some pos :=
      wordField?_of_lookup (by simp [hlookup, fields]) (hfits pos (by simp [numbers]))
    have htext : textField? read "text" = some text :=
      textField?_of_lookup (by simp [hlookup, fields, List.lookup_cons])
    simp [kindName, ofTagged?, hbody, hpos, htext]
  | erase start stop =>
    simp only [fields, List.map] at hbody
    have hstart : wordField? read "start" = some start :=
      wordField?_of_lookup (by simp [hlookup, fields]) (hfits start (by simp [numbers]))
    have hstop : wordField? read "end" = some stop :=
      wordField?_of_lookup (by simp [hlookup, fields, List.lookup_cons])
        (hfits stop (by simp [numbers]))
    simp [kindName, ofTagged?, hbody, hstart, hstop]
  | replace start stop text =>
    simp only [fields, List.map] at hbody
    have hstart : wordField? read "start" = some start :=
      wordField?_of_lookup (by simp [hlookup, fields]) (hfits start (by simp [numbers]))
    have hstop : wordField? read "end" = some stop :=
      wordField?_of_lookup (by simp [hlookup, fields, List.lookup_cons])
        (hfits stop (by simp [numbers]))
    have htext : textField? read "text" = some text :=
      textField?_of_lookup (by simp [hlookup, fields, List.lookup_cons])
    simp [kindName, ofTagged?, hbody, hstart, hstop, htext]
  | readOnly enabled =>
    simp only [fields, List.map] at hbody
    have henabled : boolField? read "enabled" = some enabled :=
      boolField?_of_lookup (by simp [hlookup, fields])
    simp [kindName, ofTagged?, hbody, henabled]
  | cleanup maxAgeMs =>
    simp only [fields, List.map] at hbody
    have hage : wordField? read "max_age_ms" = some maxAgeMs :=
      wordField?_of_lookup (by simp [hlookup, fields]) (hfits maxAgeMs (by simp [numbers]))
    simp [kindName, ofTagged?, hbody, hage]
  | pause ms =>
    simp only [fields, List.map] at hbody
    have hms : wordField? read "ms" = some ms :=
      wordField?_of_lookup (by simp [hlookup, fields]) (hfits ms (by simp [numbers]))
    simp [kindName, ofTagged?, hbody, hms]
  | scratch | beginSequence | endSequence | undo | redo =>
    simp only [kindName, ofTagged?, bare?]

/-- A varied step names its kind, and the rest is read as the step. -/
theorem tagged?_of_varies {step : Step} {value : Datum} (hfits : step.Fits)
    (h : Datum.Varies step.encode value) :
    ∃ body, Datum.tagged? tagKey value = some (step.kindName, body) ∧
      ofTagged? step.kindName body = some step := by
  have hplain : ∀ field ∈ (tagKey, Datum.text step.kindName) :: step.fields,
      field.2.isPlain = true := List.forall_mem_cons.2 ⟨rfl, step.isPlain_fields⟩
  obtain ⟨entries, rfl, hpresents⟩ := h.presents_plain hplain
  obtain ⟨rest, htagged, hrest⟩ := hpresents.tagged? step.tagKey_not_mem
  exact ⟨_, htagged, ofTagged?_of_presents hfits hrest⟩

end Step

/-! ## Scripts -/

namespace Script

/-- The numbers of the steps are machine words. -/
def Fits (script : Script) : Prop := ∀ step ∈ script.steps, step.Fits

theorem decodeSteps?_of_varies {steps : List Step} {items : List Datum}
    (hfits : ∀ step ∈ steps, step.Fits)
    (h : List.Forall₂ Datum.Varies (steps.map Step.encode) items) :
    decodeSteps? (Datum.list items) = some steps := by
  have hread : ∃ tagged, items.mapM (Datum.tagged? Step.tagKey) = some tagged ∧
      tagged.mapM (fun t => Step.ofTagged? t.1 t.2) = some steps := by
    rw [List.forall₂_map_left_iff] at h
    induction h with
    | nil => exact ⟨[], rfl, rfl⟩
    | @cons step item steps items hstep _ ih =>
      obtain ⟨hfirst, hfits⟩ := List.forall_mem_cons.1 hfits
      obtain ⟨body, htag, hof⟩ := Step.tagged?_of_varies hfirst hstep
      obtain ⟨tagged, htagged, hsteps⟩ := ih hfits
      refine ⟨(step.kindName, body) :: tagged, ?_, ?_⟩
      · simp [List.mapM_cons, htag, htagged]
      · simp [List.mapM_cons, hof, hsteps]
  obtain ⟨tagged, htagged, hsteps⟩ := hread
  simp only [decodeSteps?, Encoded.taggedList?, htagged]
  exact hsteps

theorem decode?_of_varies {script : Script} {value : Datum} (hfits : script.Fits)
    (h : Datum.Varies script.encode value) : decode? value = some script := by
  obtain ⟨entries, values, rfl, heach, hpresents⟩ := h.presents
  obtain ⟨steps, rfl, hsteps⟩ : ∃ steps, values = [steps] ∧
      Datum.Varies (.list (script.steps.map Step.encode)) steps := by
    cases heach with
    | cons hfirst hrest =>
      cases hrest
      exact ⟨_, rfl, hfirst⟩
  obtain ⟨items, rfl, hitems⟩ := hsteps.of_list
  obtain ⟨read, hread, hlookup⟩ := hpresents.read (by simp) (List.Sublist.refl _)
  have hread' : Encoded.fields? ["steps"] (Datum.map entries) = some read := hread
  have hsteps : read.lookup "steps" = some (.list items) := by simp [hlookup]
  simp [decode?, hread', hsteps, decodeSteps?_of_varies hfits hitems]

end Script

/-! ## Settings -/

/-- A field that may be removed is read as its value, or else as the default. -/
theorem wordField?_of_kept {read fields : List (String × Datum)} {gone : List String}
    {name : String} {n : Nat} (fallback : Nat) (hn : n < wordRange)
    (hread : read.lookup name = if gone.contains name then none else fields.lookup name)
    (hfield : fields.lookup name = some (.nat n)) :
    wordField? read name fallback = some (if gone.contains name then fallback else n) := by
  rw [wordField?, hread, hfield]
  cases gone.contains name with
  | false => exact Datum.word?_nat hn
  | true => rfl

namespace HistorySettings

/-- The numbers are machine words. -/
structure Fits (c : HistorySettings) : Prop where
  maxSequences : c.maxSequences < wordRange
  maxMemory : c.maxMemory < wordRange
  windowMs : c.windowMs < wordRange

/-- The settings with the named fields at their defaults. -/
def reset (gone : List String) (c : HistorySettings) : HistorySettings :=
  let fallback : HistorySettings := {}
  { maxSequences := if gone.contains "max_sequences" then fallback.maxSequences else c.maxSequences
    maxMemory := if gone.contains "max_memory" then fallback.maxMemory else c.maxMemory
    windowMs := if gone.contains "sequence_timeout_ms" then fallback.windowMs else c.windowMs }

theorem decode?_without {c : HistorySettings} {value : Datum} (gone : List String) (hfits : c.Fits)
    (h : Datum.Varies c.encode value) : decode? (value.without gone) = some (c.reset gone) := by
  obtain ⟨entries, rfl, hpresents⟩ := h.presents_plain (by simp [Datum.isPlain, Datum.nat])
  obtain ⟨read, hread, hlookup⟩ := (hpresents.without gone).read (by simp)
    (List.filter_sublist.map Prod.fst)
  have hfields : Encoded.fields? fieldNames ((Datum.map entries).without gone) = some read := hread
  simp only [Datum.lookup_filter_not_contains] at hlookup
  have hsequences := wordField?_of_kept ({} : HistorySettings).maxSequences
    hfits.maxSequences (hlookup "max_sequences") (by simp)
  have hmemory := wordField?_of_kept ({} : HistorySettings).maxMemory
    hfits.maxMemory (hlookup "max_memory") (by simp [List.lookup_cons])
  have hwindow := wordField?_of_kept ({} : HistorySettings).windowMs
    hfits.windowMs (hlookup "sequence_timeout_ms") (by simp [List.lookup_cons])
  rw [decode?, hfields, Option.bind_eq_bind, Option.bind_some]
  dsimp only
  rw [hsequences, hmemory, hwindow]
  rfl

end HistorySettings

namespace Settings

/-- The numbers are machine words. -/
structure Fits (c : Settings) : Prop where
  initialCapacity : c.initialCapacity < wordRange
  maxBuffers : c.maxBuffers < wordRange
  maxScratchBuffers : c.maxScratchBuffers < wordRange
  history : c.history.Fits

/-- The settings with the fields `outer`, and the fields `inner` of the history, at their
defaults. -/
def reset (outer inner : List String) (c : Settings) : Settings :=
  let fallback : Settings := {}
  { initialCapacity :=
      if outer.contains "initial_capacity" then fallback.initialCapacity else c.initialCapacity
    maxBuffers := if outer.contains "max_buffers" then fallback.maxBuffers else c.maxBuffers
    maxScratchBuffers :=
      if outer.contains "max_scratch_buffers" then fallback.maxScratchBuffers
      else c.maxScratchBuffers
    history := if outer.contains "history" then fallback.history else c.history.reset inner }

theorem decode?_without {c : Settings} {value : Datum} (outer inner : List String) (hfits : c.Fits)
    (h : Datum.Varies c.encode value) :
    decode? ((value.alter "history" (Datum.without inner)).without outer) =
      some (c.reset outer inner) := by
  obtain ⟨entries, values, rfl, heach, hpresents⟩ := h.presents
  obtain ⟨history, rfl, hhistory⟩ : ∃ history,
      values = [.nat c.initialCapacity, .nat c.maxBuffers, .nat c.maxScratchBuffers, history] ∧
        Datum.Varies c.history.encode history := by
    obtain _ | ⟨hcapacity, _ | ⟨hbuffers, _ | ⟨hscratch, _ | ⟨hhistory, _ | _⟩⟩⟩⟩ := heach
    exact ⟨_, by rw [hcapacity.of_isPlain rfl, hbuffers.of_isPlain rfl, hscratch.of_isPlain rfl],
      hhistory⟩
  have hcut := (hpresents.alter "history" (Datum.without inner)).without outer
  obtain ⟨read, hread, hlookup⟩ := hcut.read (by simp) (List.filter_sublist.map Prod.fst)
  have hfields : Encoded.fields? fieldNames
      (((Datum.map entries).alter "history" (Datum.without inner)).without outer) = some read :=
    hread
  simp only [Datum.lookup_filter_not_contains, List.map, List.zip, List.zipWith,
    Datum.alterAt] at hlookup
  have hcapacity := wordField?_of_kept ({} : Settings).initialCapacity
    hfits.initialCapacity (hlookup "initial_capacity") (by simp)
  have hbuffers := wordField?_of_kept ({} : Settings).maxBuffers
    hfits.maxBuffers (hlookup "max_buffers") (by simp [List.lookup_cons])
  have hscratch := wordField?_of_kept ({} : Settings).maxScratchBuffers
    hfits.maxScratchBuffers (hlookup "max_scratch_buffers") (by simp [List.lookup_cons])
  have hinner : read.lookup "history" =
      if outer.contains "history" then none else some (history.without inner) :=
    (hlookup "history").trans (by simp [List.lookup_cons])
  rw [decode?, hfields, Option.bind_eq_bind, Option.bind_some]
  dsimp only
  rw [hcapacity, hbuffers, hscratch, hinner]
  simp only [reset]
  cases outer.contains "history" with
  | false =>
    simp [HistorySettings.decode?_without inner hfits.history hhistory]
  | true => rfl

theorem decode?_of_varies {c : Settings} {value : Datum} (hfits : c.Fits)
    (h : Datum.Varies c.encode value) : decode? value = some c := by
  have hread := decode?_without [] [] hfits h
  rw [Datum.without_nil, Datum.alter_of_eq Datum.without_nil] at hread
  exact hread

end Settings

/-! ## Both -/

/-- Whatever was written down is read back: a script and settings, whatever the order of the entries
and whatever foreign entries stand among them. Settings are also read when fields are removed, the
fields `outer` of the settings and the fields `inner` of the history settings: those are at their
defaults and all others are kept. -/
theorem encodings_read_back :
    (∀ script : Script, script.Fits →
      Script.decode? script.encode = some script ∧
      ∀ value, Datum.Varies script.encode value → Script.decode? value = some script) ∧
    ∀ c : Settings, c.Fits →
      Settings.decode? c.encode = some c ∧
      ∀ value, Datum.Varies c.encode value →
        Settings.decode? value = some c ∧
        ∀ outer inner : List String,
          Settings.decode? ((value.alter "history" (Datum.without inner)).without outer) =
            some (c.reset outer inner) := by
  refine ⟨fun script hfits => ⟨?_, ?_⟩, fun c hfits => ⟨?_, fun value hvaries => ⟨?_, ?_⟩⟩⟩
  · exact Script.decode?_of_varies hfits (.same _)
  · exact fun value hvaries => Script.decode?_of_varies hfits hvaries
  · exact Settings.decode?_of_varies hfits (.same _)
  · exact Settings.decode?_of_varies hfits hvaries
  · exact fun outer inner => Settings.decode?_without outer inner hfits hvaries

/-- The entries of a script and of its steps in reverse, with others among them, and settings
without two of their fields. -/
theorem encodings_read_back_reversed :
    Script.decode?
        (Datum.map [(.name "note", .null), (.name "steps", .list [
          .map [(.index 9, .bool true), (.name "text", .text "é"), (.name "end", .nat 0),
            (.name "start", .nat 18446744073709551615), (.name "op", .text "replace")],
          .map [(.name "steps", .list []), (.name "op", .text "begin")]])]) =
      some { steps := [.replace 18446744073709551615 0 "é", .beginSequence] } ∧
    Settings.decode?
        (Datum.record [("initial_capacity", .nat 0), ("max_scratch_buffers", .nat 3),
          ("history", .record [("max_sequences", .nat 7), ("sequence_timeout_ms", .nat 0)])]) =
      some { initialCapacity := 0, maxScratchBuffers := 3,
             history := { maxSequences := 7, windowMs := 0 } } := by
  obtain ⟨hscripts, hsettings⟩ := encodings_read_back
  constructor
  · have hfits : Script.Fits
        { steps := [.replace 18446744073709551615 0 "é", .beginSequence] } := by
      simp [Script.Fits, Step.Fits, Step.numbers, wordRange]
    have hreplace : Datum.Varies (Step.encode (.replace 18446744073709551615 0 "é"))
        (.map [(.index 9, .bool true), (.name "text", .text "é"), (.name "end", .nat 0),
          (.name "start", .nat 18446744073709551615), (.name "op", .text "replace")]) :=
      .reversed [(.index 9, .bool true)] (List.forall₂_same.2 fun value _ => .same value)
        (by simp [Key.Foreign, Step.fields])
    have hbegin : Datum.Varies (Step.encode .beginSequence)
        (.map [(.name "steps", .list []), (.name "op", .text "begin")]) :=
      .reversed [(.name "steps", .list [])] (List.forall₂_same.2 fun value _ => .same value)
        (by simp [Key.Foreign, Step.fields, Step.tagKey])
    have hsteps := Datum.Varies.list (.cons hreplace (.cons hbegin .nil))
    exact (hscripts _ hfits).2 _ (@Datum.Varies.reversed [("steps", _)] _ [(.name "note", .null)]
      (.cons hsteps .nil) (by simp [Key.Foreign]))
  · let c : Settings :=
      { initialCapacity := 0, maxBuffers := 5, maxScratchBuffers := 3,
        history := { maxSequences := 7, maxMemory := 9, windowMs := 0 } }
    have hfits : c.Fits :=
      ⟨by decide, by decide, by decide, ⟨by decide, by decide, by decide⟩⟩
    have hread := ((hsettings c hfits).2 _ (.same _)).2 ["max_buffers"] ["max_memory"]
    simpa [c, Settings.encode, HistorySettings.encode, Datum.record, Datum.alter, Datum.alterAt,
      Datum.without, Key.isAmong, Settings.reset, HistorySettings.reset] using hread

end TextStore
