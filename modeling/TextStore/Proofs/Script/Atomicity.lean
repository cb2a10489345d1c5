import TextStore.Proofs.Gap.Unchanged
import TextStore.Proofs.History.Recorded
import TextStore.Proofs.Script.Current
import TextStore.Proofs.Store.Edit

/-!
# Edits are all or nothing

An edit deletes, inserts and records. Each of the three can be refused, and what was done before is
taken back by operations that could be refused themselves, but never are.

* `putBack_ok`, `PutsBack` : the removed text fits into the gap whenever it has to be put back;
* `apply_of_splice`, `Tells` : the recorded operation does again just what the edit did;
* `Made`, `Kept` : what an accepted and what a refused edit leave behind;
* `edit_atomic` : every edit is one of the two, and the cursor of a session follows it.
-/

namespace TextStore

/-! ## Deleting and inserting -/

namespace GapBuffer

variable {b b₁ b₂ : GapBuffer} {mem : Memory} {start stop : Nat} {text : List UInt8}

/-- A deletion that is accepted keeps the region. -/
theorem deleted_of_ok (hb : b.WellFormed) (hdelete : b.delete start stop = (.ok (), b₁)) :
    b.readOnly = false ∧ b₁.capacity = b.capacity := by
  obtain ⟨hle, hstop, -⟩ := delete_of_ok hb hdelete
  unfold delete at hdelete
  split at hdelete
  · cases hdelete
  split at hdelete
  · cases hdelete
  next hro =>
  refine ⟨by simpa using hro, ?_⟩
  split at hdelete
  · cases hdelete
    rfl
  · cases hdelete
    exact capacity_placeGap hb (Nat.le_trans hle hstop)

theorem insert_of_grants (hb : b.WellFormed) (hpos : start ≤ b.length) (hw : b.readOnly = false)
    (hgrants : b.Grants mem (b.length + text.length)) :
    ∃ b', b.insert mem start text = (.ok (), b') := by
  rcases insert_cases mem hb start text with ⟨hlt, -⟩ | ⟨-, hro, -⟩ | ⟨-, -, hno, -⟩ |
    ⟨-, -, -, b', hok, -⟩
  · omega
  · rw [hw] at hro
    cases hro
  · exact absurd hgrants hno
  · exact ⟨b', hok⟩

/-- What was removed fits into the gap, however much the region has grown since. -/
theorem putBack_ok (hb : b.WellFormed) (hle : start ≤ stop) (hstop : stop ≤ b.length)
    (hw : b.readOnly = false)
    (hb₁ : b.Becomes b₁ (b.contents.take start ++ b.contents.drop stop)) :
    ((b.contents.take stop).drop start).length ≤ b₁.gapLength ∧
      ∀ mem, ∃ b₂, b₁.insert mem start ((b.contents.take stop).drop start) = (.ok (), b₂) := by
  constructor
  · have hlen := length_contents hb
    have hlen₁ := length_contents hb₁.wellFormed
    have hroom := length_add_gapLength hb₁.wellFormed
    have hcap := hb₁.capacity
    have hfull := length_le_capacity b
    rw [hb₁.contents, List.length_append, List.length_take, List.length_drop] at hlen₁
    rw [List.length_drop, List.length_take]
    omega
  · intro mem
    obtain ⟨b₂, hback, -⟩ := insert_back mem hb hle hstop hw hb₁
    exact ⟨b₂, hback⟩

/-- The operation deletes and inserts as an edit does; where one of the texts is empty, leaving out
its call makes no difference. -/
theorem apply_of_splice {op : Operation}
    (hdelete : b.delete op.position (op.position + op.edit.deletedText.length) = (.ok (), b₁))
    (hinsert : b₁.insert mem op.position op.edit.insertedText = (.ok (), b₂)) :
    op.apply (replayTarget mem) b = (.ok (), b₂) := by
  obtain ⟨id, position, edit, cursorBefore, cursorAfter, recordedAt⟩ := op
  cases edit with
  | insert text =>
    have hself := (b.delete_eq_self_iff position position).2 (.inr rfl)
    simp only [Edit.deletedText, List.length_nil, Nat.add_zero] at hdelete
    rw [hdelete] at hself
    cases hself
    simp only [Edit.insertedText] at hinsert
    simp only [Operation.apply, replayTarget, hinsert]
    rfl
  | delete text =>
    have hself := (b₁.insert_eq_self_iff mem position []).2 (.inr rfl)
    simp only [Edit.insertedText] at hinsert
    rw [hinsert] at hself
    cases hself
    simp only [Edit.deletedText] at hdelete
    simp only [Operation.apply, replayTarget, hdelete]
    rfl
  | replace deleted inserted =>
    simp only [Edit.deletedText] at hdelete
    simp only [Edit.insertedText] at hinsert
    simp only [Operation.apply, replayTarget, hdelete, Except.mapError, hinsert]

end GapBuffer

/-! ## The outcomes of an edit -/

namespace StoredBuffer

/-- What was removed can be put back with any memory, after an insertion that was refused and after
one that was accepted and is deleted again. -/
structure PutsBack (mem : Memory) (b : GapBuffer) (start stop : Nat) (text : List UInt8) : Prop where
  refused : ∀ removed b₁ b₂ e, b.extract mem start stop = .ok removed →
    b.delete start stop = (.ok (), b₁) → b₁.insert mem start text = (.error e, b₂) →
    removed.length ≤ b₂.gapLength ∧ ∀ mem', ∃ b₃, b₂.insert mem' start removed = (.ok (), b₃)
  accepted : ∀ removed b₁ b₂, b.extract mem start stop = .ok removed →
    b.delete start stop = (.ok (), b₁) → b₁.insert mem start text = (.ok (), b₂) →
    ∃ b₃, b₂.delete start (start + text.length) = (.ok (), b₃) ∧
      removed.length ≤ b₃.gapLength ∧ ∀ mem', ∃ b₄, b₃.insert mem' start removed = (.ok (), b₄)

/-- `op` tells an edit that led from the buffer `b` to the buffer `b'`. -/
structure Tells (mem : Memory) (b : GapBuffer) (cursor start stop : Nat) (text : List UInt8)
    (b' : GapBuffer) (op : Operation) : Prop where
  position : op.position = start
  deletedText : op.edit.deletedText = (b.contents.take stop).drop start
  insertedText : op.edit.insertedText = text
  cursorBefore : op.cursorBefore = cursor
  cursorAfter : op.cursorAfter = start + text.length
  apply : op.apply (GapBuffer.replayTarget mem) b = (.ok (), b')
  revert : ∀ mem', ∃ b'', op.revert (GapBuffer.replayTarget mem') b' = (.ok (), b'') ∧
    b''.contents = b.contents

/-- The edit was made and recorded, unless recording is off. -/
structure Made (mem : Memory) (now : Nat) (sb : StoredBuffer) (cursor start stop : Nat)
    (text : List UInt8) (sb' : StoredBuffer) : Prop where
  contents : sb'.buffer.contents =
    sb.buffer.contents.take start ++ text ++ sb.buffer.contents.drop stop
  recorded : sb.history.enabled = true → ∃ op, sb.history.Appends now op sb'.history ∧
    Tells mem sb.buffer cursor start stop text sb'.buffer op
  unrecorded : sb.history.enabled = false → sb'.history = sb.history

/-- Nothing of the edit is left. -/
structure Kept (sb sb' : StoredBuffer) : Prop where
  contents : sb'.buffer.contents = sb.buffer.contents
  length : sb'.buffer.length = sb.buffer.length
  readOnly : sb'.buffer.readOnly = sb.buffer.readOnly
  history : sb.history.AddsNone sb'.history

/-- The range is one of the text, the buffer is writable, and memory grants all that is asked for. -/
structure Allowed (mem : Memory) (sb : StoredBuffer) (start stop : Nat) (text : List UInt8) :
    Prop where
  start_le : start ≤ stop
  stop_le : stop ≤ sb.buffer.length
  writable : sb.buffer.readOnly = false
  copy : mem.copy (stop - start) = true
  region : sb.buffer.Grants mem (sb.buffer.length - (stop - start) + text.length)
  recorded : ∀ n, mem.recorded n = true
  commit : mem.commit sb.history.openOperations.length = true
  entry : mem.entry = true

variable {sb sb' : StoredBuffer} {mem : Memory} {now cursor start stop n : Nat}
  {text removed : List UInt8}

theorem splice_of_ok (hsplice : sb.splice mem start stop text = (.ok removed, sb')) :
    sb.buffer.extract mem start stop = .ok removed ∧
      ∃ b₁ b₂, sb.buffer.delete start stop = (.ok (), b₁) ∧
        b₁.insert mem start text = (.ok (), b₂) ∧ sb' = { sb with buffer := b₂ } := by
  unfold splice at hsplice
  split at hsplice
  · cases hsplice
  next hextract =>
  split at hsplice
  · cases hsplice
  next b₁ hdelete =>
  split at hsplice
  · next b₂ hinsert =>
    cases hsplice
    exact ⟨hextract, b₁, b₂, hdelete, hinsert, rfl⟩
  · split at hsplice <;> cases hsplice

theorem edit_of_ok (hedit : sb.edit mem now cursor start stop text = (.ok n, sb')) :
    n = start + text.length ∧ ∃ removed sb₁, sb.splice mem start stop text = (.ok removed, sb₁) ∧
      sb₁.recordSplice mem now cursor start removed text = (.ok (), sb') := by
  unfold edit at hedit
  split at hedit
  · cases hedit
  next removed sb₁ hsplice =>
  split at hedit
  · next hrecord =>
    cases hedit
    exact ⟨rfl, removed, sb₁, hsplice, hrecord⟩
  · split at hedit <;> cases hedit

theorem removed_of_ok (hb : sb.buffer.WellFormed)
    (hextract : sb.buffer.extract mem start stop = .ok removed) :
    removed = (sb.buffer.contents.take stop).drop start := by
  rcases GapBuffer.extract_cases mem hb start stop with ⟨e, hno⟩ | ⟨-, -, hok⟩
  · rw [hextract] at hno
    cases hno
  · rw [hextract] at hok
    cases hok
    rfl

theorem putsBack (hb : sb.buffer.WellFormed) (mem : Memory) (start stop : Nat) (text : List UInt8) :
    PutsBack mem sb.buffer start stop text := by
  constructor
  · intro removed b₁ b₂ e hextract hdelete hinsert
    obtain ⟨hle, hstop, hb₁⟩ := GapBuffer.delete_of_ok hb hdelete
    have hw := (GapBuffer.deleted_of_ok hb hdelete).1
    have hsame := (b₁.insert_eq_self_iff mem start text).2 (.inl ⟨e, by rw [hinsert]⟩)
    rw [hinsert] at hsame
    cases hsame
    rw [removed_of_ok hb hextract]
    exact GapBuffer.putBack_ok hb hle hstop hw hb₁
  · intro removed b₁ b₂ hextract hdelete hinsert
    obtain ⟨hle, hstop, -⟩ := GapBuffer.delete_of_ok hb hdelete
    have hw := (GapBuffer.deleted_of_ok hb hdelete).1
    obtain ⟨b₃, hagain, hb₃⟩ := GapBuffer.delete_inserted hb hle hstop hw
      (GapBuffer.replace_of_ok hb hdelete hinsert)
    rw [removed_of_ok hb hextract]
    exact ⟨b₃, hagain, GapBuffer.putBack_ok hb hle hstop hw hb₃⟩

theorem tells_of_splice {b b₁ b₂ : GapBuffer} {edit : Edit} {id recordedAt : Nat}
    (hb : b.WellFormed) (hdelete : b.delete start stop = (.ok (), b₁))
    (hinsert : b₁.insert mem start text = (.ok (), b₂))
    (hdeleted : edit.deletedText = (b.contents.take stop).drop start)
    (hinserted : edit.insertedText = text) :
    Tells mem b cursor start stop text b₂
      { id, position := start, edit, cursorBefore := cursor, cursorAfter := start + text.length,
        recordedAt } := by
  obtain ⟨hle, hstop, -⟩ := GapBuffer.delete_of_ok hb hdelete
  have hw := (GapBuffer.deleted_of_ok hb hdelete).1
  have hb₂ := GapBuffer.replace_of_ok hb hdelete hinsert
  have hhead := GapBuffer.length_take_contents hb (Nat.le_trans hle hstop)
  have hlen := GapBuffer.length_contents hb
  have hcount : start + edit.deletedText.length = stop := by
    rw [hdeleted, List.length_drop, List.length_take]
    omega
  refine ⟨rfl, hdeleted, hinserted, rfl, rfl, ?_, fun mem' => ?_⟩
  · rw [← hcount] at hdelete
    rw [← hinserted] at hinsert
    exact GapBuffer.apply_of_splice hdelete hinsert
  · have hsplices : Operation.Splices
        { id, position := start, edit, cursorBefore := cursor, cursorAfter := start + text.length,
          recordedAt } b.contents b₂.contents :=
      ⟨_, _, hhead, hdeleted ▸ GapBuffer.eq_before_in_after hle _, hinserted ▸ hb₂.contents⟩
    have hfits := Nat.le_trans (GapBuffer.length_contents_le hb) hb₂.capacity
    obtain ⟨b₃, hrevert, hb₃⟩ := GapBuffer.apply_of_splices mem' hb₂.wellFormed
      (hb₂.readOnly.trans hw) hsplices.flip hfits
    rw [Operation.revert_eq_apply_flip]
    exact ⟨b₃, hrevert, hb₃.contents⟩

theorem made_of_ok (hb : sb.buffer.WellFormed) (hh : sb.history.WellFormed)
    (hedit : sb.edit mem now cursor start stop text = (.ok n, sb')) :
    Made mem now sb cursor start stop text sb' := by
  obtain ⟨-, removed, sb₁, hsplice, hrecord⟩ := edit_of_ok hedit
  obtain ⟨hextract, b₁, b₂, hdelete, hinsert, rfl⟩ := splice_of_ok hsplice
  obtain rfl := removed_of_ok hb hextract
  obtain ⟨edit, hdeleted, hinserted, hrecordSplice⟩ := recordSplice_eq mem now
    { sb with buffer := b₂ } cursor start ((sb.buffer.contents.take stop).drop start) text
  rw [hrecord] at hrecordSplice
  rcases hanswer : sb.history.record mem now start edit cursor (start + text.length) with
    ⟨cause | ⟨⟩, h'⟩
  · simp only [hanswer] at hrecordSplice
    cases hrecordSplice
  simp only [hanswer] at hrecordSplice
  cases hrecordSplice
  refine ⟨(GapBuffer.replace_of_ok hb hdelete hinsert).contents, fun hon => ?_, fun hoff => ?_⟩
  · exact ⟨_, History.record_appends hh hon hanswer,
      tells_of_splice hb hdelete hinsert hdeleted hinserted⟩
  · rw [History.record_off hoff] at hanswer
    cases hanswer
    rfl

theorem kept_of_error (hb : sb.buffer.WellFormed) (hh : sb.history.WellFormed) {e : EditError}
    (hedit : sb.edit mem now cursor start stop text = (.error e, sb')) : Kept sb sb' := by
  rcases sb.edit_cases mem now hb cursor start stop text with ⟨e', b', h', heq, hb', hhistory⟩ |
    ⟨-, -, edit, b', h', heq, -⟩
  · rw [hedit] at heq
    cases heq
    refine ⟨hb'.contents, ?_, hb'.readOnly, ?_⟩
    · rw [← GapBuffer.length_contents hb'.wellFormed, hb'.contents, GapBuffer.length_contents hb]
    · rcases hhistory with ⟨rfl, -⟩ | ⟨edit, cause, -, hrecord⟩
      · exact .refl _
      · exact History.record_addsNone hh hrecord
  · rw [hedit] at heq
    cases heq

/-- An edit that nothing speaks against is made. -/
theorem edit_of_allowed (hb : sb.buffer.WellFormed) (hh : sb.history.WellFormed)
    (hallowed : Allowed mem sb start stop text) (now cursor : Nat) :
    (sb.edit mem now cursor start stop text).1 = .ok (start + text.length) := by
  obtain ⟨hle, hstop, hw, hcopy, hregion, hrecorded, hcommit, hentry⟩ := hallowed
  obtain ⟨b₁, hdelete, hb₁⟩ := GapBuffer.delete_of_writable hb hw hle hstop
  have hextract : sb.buffer.extract mem start stop = .ok (sb.buffer.slice start stop) := by
    rw [GapBuffer.extract, GapBuffer.checkRange, if_neg (by omega)]
    simp only [hcopy, if_true]
  have hlen := GapBuffer.length_contents hb
  have hlen₁ := GapBuffer.length_contents hb₁.wellFormed
  rw [hb₁.contents, List.length_append, List.length_take, List.length_drop] at hlen₁
  have hneeded : b₁.length + text.length = sb.buffer.length - (stop - start) + text.length := by
    omega
  have hgrants : b₁.Grants mem (b₁.length + text.length) := by
    rw [hneeded, GapBuffer.Grants, (GapBuffer.deleted_of_ok hb hdelete).2]
    exact hregion
  obtain ⟨b₂, hinsert⟩ := GapBuffer.insert_of_grants hb₁.wellFormed
    (show start ≤ b₁.length by omega) (hb₁.readOnly.trans hw) hgrants
  obtain ⟨texts, -, -, hrecord⟩ := recordSplice_eq mem now { sb with buffer := b₂ } cursor start
    (sb.buffer.slice start stop) text
  rcases History.record_cases mem now hh start texts cursor (start + text.length) with
    ⟨m, h', -, -, -, hno⟩ | ⟨h', hok, -⟩
  · exact absurd ⟨hcommit, hrecorded, hentry⟩ hno
  · simp only [edit, splice, hextract, hdelete, hinsert, hrecord, hok]

/-- An edit with this cursor is made as a whole or not at all. -/
structure Atomic (mem : Memory) (now : Nat) (sb : StoredBuffer) (cursor start stop : Nat)
    (text : List UInt8) : Prop where
  made : ∀ answer sb', sb.edit mem now cursor start stop text = (.ok answer, sb') →
    answer = start + text.length ∧ Made mem now sb cursor start stop text sb'
  kept : ∀ e sb', sb.edit mem now cursor start stop text = (.error e, sb') → Kept sb sb'
  putsBack : PutsBack mem sb.buffer start stop text
  allowed : Allowed mem sb start stop text →
    (sb.edit mem now cursor start stop text).1 = .ok (start + text.length)

end StoredBuffer

/-- An edit of the current buffer moves the cursor behind the new text when it is made, and leaves it
alone when it is refused. -/
theorem Session.edit_current {s : Session} {sb : StoredBuffer}
    (hsb : s.store.currentBuffer? = some sb) (mem : Memory) (start stop : Nat) (text : String) :
    ∃ answer sb', sb.edit mem s.now s.cursor start stop (Utf8.encode text) = (answer, sb') ∧
      (s.edit mem start stop text).2.cursor = answer.toOption.getD s.cursor ∧
      (s.edit mem start stop text).2.store.currentBuffer? = some (sb.adopt sb') := by
  rcases hedit : sb.edit mem s.now s.cursor start stop (Utf8.encode text) with ⟨e | cursor, sb'⟩
  · refine ⟨_, sb', rfl, ?_⟩
    rw [Session.edit, moving_of_some hsb]
    simp only [hedit]
    exact ⟨rfl, currentBuffer?_put hsb sb'⟩
  · refine ⟨_, sb', rfl, ?_⟩
    rw [Session.edit, moving_of_some hsb]
    simp only [hedit]
    exact ⟨rfl, currentBuffer?_put hsb sb'⟩

/-- Whatever was done to a buffer and to its history, every edit of it is made as a whole, and
recorded so, or leaves text, flag and operations as they were; what it takes back on the way fits
into the region that is there. In a session in which this buffer is current, the cursor goes behind
the new text or stays. -/
theorem edit_atomic (sb : StoredBuffer) (hb : sb.buffer.Reachable) (hh : sb.history.Reachable)
    (mem : Memory) (start stop : Nat) :
    (∀ now cursor text, sb.Atomic mem now cursor start stop text) ∧
      ∀ (s : Session) (text : String), s.store.currentBuffer? = some sb →
        ∃ answer sb', sb.edit mem s.now s.cursor start stop (Utf8.encode text) = (answer, sb') ∧
          (s.edit mem start stop text).2.cursor = answer.toOption.getD s.cursor ∧
          (s.edit mem start stop text).2.store.currentBuffer? = some (sb.adopt sb') := by
  have hb := hb.wellFormed
  have hh := hh.wellFormed
  refine ⟨fun now cursor text => ⟨fun answer sb' hedit => ?_, fun e sb' hedit => ?_, ?_, ?_⟩, ?_⟩
  · exact ⟨(StoredBuffer.edit_of_ok hedit).1, StoredBuffer.made_of_ok hb hh hedit⟩
  · exact StoredBuffer.kept_of_error hb hh hedit
  · exact StoredBuffer.putsBack hb mem start stop text
  · exact fun hallowed => StoredBuffer.edit_of_allowed hb hh hallowed now cursor
  · exact fun s text hsb => Session.edit_current hsb mem start stop text

/-- Memory that refuses an open sequence one more operation. -/
def fullHistory : Memory := { Memory.ample with entry := false }

/-- A buffer whose text fills its region. -/
def fullBuffer : StoredBuffer :=
  .create 1 none
    (GapBuffer.run { region := .zeroed 3, gapStart := 0, gapEnd := 3, counters := { maxCapacity := 3 } }
      [(.ample, .insert 0 [97, 98, 99])]).2 {} 0

/-- The region has to grow before the record of the edit is refused. -/
theorem edit_atomic_fullHistory :
    (fullBuffer.edit fullHistory 5 0 1 2 [120, 121]).1 =
        .error (.history (.allocationFailed 1)) ∧
      3 < (fullBuffer.edit fullHistory 5 0 1 2 [120, 121]).2.buffer.capacity ∧
      StoredBuffer.Kept fullBuffer (fullBuffer.edit fullHistory 5 0 1 2 [120, 121]).2 := by
  have hb : fullBuffer.buffer.Reachable :=
    ⟨.withCapacity 3, .ample, _, [(.ample, .insert 0 [97, 98, 99])], rfl, rfl⟩
  have hh : fullBuffer.history.Reachable := ⟨{}, [], rfl⟩
  have hrefused : (fullBuffer.edit fullHistory 5 0 1 2 [120, 121]).1 =
      .error (.history (.allocationFailed 1)) := by decide +kernel
  have hatomic := (edit_atomic fullBuffer hb hh fullHistory 1 2).1 5 0 [120, 121]
  refine ⟨hrefused, by decide +kernel, hatomic.kept (.history (.allocationFailed 1)) _ ?_⟩
  rw [← hrefused]

end TextStore
