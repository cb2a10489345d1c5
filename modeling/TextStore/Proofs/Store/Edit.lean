import TextStore.Proofs.Gap.Reads
import TextStore.Proofs.Store.InStep
import TextStore.Store.Edit

/-!
# Edits of a stored buffer

* `insert_back`, `delete_inserted` : the text of a deleted range can always be put back, without any
  memory, and what was inserted instead can be deleted first;
* `splice_cases`, `recordSplice_eq` : the two halves of an edit;
* `edit_cases` : everything an edit can do. It is refused and leaves the text as it was, or it
  replaces the range and records just that;
* `InStep.edit` : either way the buffer stays in step with its history.
-/

namespace TextStore

namespace GapBuffer

variable {b b₁ : GapBuffer} {start stop : Nat}

/-- What a deletion took out fits in where it was. -/
theorem insert_back (mem : Memory) (hb : b.WellFormed) (hle : start ≤ stop) (hstop : stop ≤ b.length)
    (hw : b.readOnly = false)
    (hb₁ : b.Becomes b₁ (b.contents.take start ++ b.contents.drop stop)) :
    ∃ b₂, b₁.insert mem start ((b.contents.take stop).drop start) = (.ok (), b₂) ∧
      b.Becomes b₂ b.contents := by
  have hhead := length_take_contents hb (Nat.le_trans hle hstop)
  have hlen := length_contents hb
  have hlen₁ := length_contents hb₁.wellFormed
  have hcap := hb₁.capacity
  have hroom := length_le_capacity b
  rw [hb₁.contents, List.length_append, hhead, List.length_drop] at hlen₁
  obtain ⟨b₂, heq, hb₂⟩ := insert_of_fits mem hb₁.wellFormed (show start ≤ b₁.length by omega)
    (hb₁.readOnly.trans hw)
    (show b₁.length + ((b.contents.take stop).drop start).length ≤ b₁.capacity by
      rw [List.length_drop, List.length_take]; omega)
  rw [hb₁.contents, List.take_left' hhead, List.drop_left' hhead, ← eq_before_in_after hle] at hb₂
  exact ⟨b₂, heq, hb₁.trans hb₂⟩

/-- What was inserted in place of a range can be deleted again. -/
theorem delete_inserted (hb : b.WellFormed) (hle : start ≤ stop) (hstop : stop ≤ b.length)
    (hw : b.readOnly = false) {text : List UInt8}
    (hb₁ : b.Becomes b₁ (b.contents.take start ++ text ++ b.contents.drop stop)) :
    ∃ b₂, b₁.delete start (start + text.length) = (.ok (), b₂) ∧
      b.Becomes b₂ (b.contents.take start ++ b.contents.drop stop) := by
  have hhead := length_take_contents hb (Nat.le_trans hle hstop)
  have hlen := length_contents hb₁.wellFormed
  rw [hb₁.contents, List.length_append, List.length_append, hhead] at hlen
  have hboth : (b.contents.take start ++ text).length = start + text.length := by
    rw [List.length_append, hhead]
  obtain ⟨b₂, hdelete, hb₂⟩ := delete_of_writable hb₁.wellFormed (hb₁.readOnly.trans hw)
    (Nat.le_add_right start text.length) (by omega)
  rw [hb₁.contents, List.drop_left' hboth, List.append_assoc, List.take_left' hhead] at hb₂
  exact ⟨b₂, hdelete, hb₁.trans hb₂⟩

end GapBuffer

namespace StoredBuffer

variable {sb : StoredBuffer}

/-- A splice is refused with the text as it was, or replaces the range and answers what was in
it. Only a refusal of memory can have moved the text within its region. -/
theorem splice_cases (mem : Memory) (hb : sb.buffer.WellFormed) (start stop : Nat)
    (text : List UInt8) :
    (∃ e b', sb.splice mem start stop text = (.error e, { sb with buffer := b' }) ∧
      sb.buffer.Becomes b' sb.buffer.contents ∧
      (b' = sb.buffer ∨ ∃ n, e = .allocationFailed n)) ∨
    (start ≤ stop ∧ stop ≤ sb.buffer.length ∧ sb.buffer.readOnly = false ∧
      ∃ b', sb.splice mem start stop text =
          (.ok ((sb.buffer.contents.take stop).drop start), { sb with buffer := b' }) ∧
        sb.buffer.Becomes b'
          (sb.buffer.contents.take start ++ text ++ sb.buffer.contents.drop stop)) := by
  unfold splice
  rcases GapBuffer.extract_cases mem hb start stop with ⟨e, hcopy⟩ | ⟨hle, hstop, hcopy⟩
  · rw [hcopy]
    exact .inl ⟨e, sb.buffer, rfl, .refl hb, .inl rfl⟩
  rw [hcopy]
  rcases GapBuffer.delete_cases hb start stop with ⟨-, hdelete⟩ | ⟨-, -, -, hdelete⟩ |
    ⟨-, -, hw, b₁, hdelete, hb₁⟩
  · simp only [hdelete]
    exact .inl ⟨_, sb.buffer, rfl, .refl hb, .inl rfl⟩
  · simp only [hdelete]
    exact .inl ⟨_, sb.buffer, rfl, .refl hb, .inl rfl⟩
  simp only [hdelete]
  obtain ⟨b₂, hback, hb₂⟩ := GapBuffer.insert_back mem hb hle hstop hw hb₁
  have hlen₁ := GapBuffer.length_contents hb₁.wellFormed
  rw [hb₁.contents, List.length_append,
    GapBuffer.length_take_contents hb (Nat.le_trans hle hstop)] at hlen₁
  rcases GapBuffer.insert_cases mem hb₁.wellFormed start text with ⟨hlt, -⟩ | ⟨-, hro, -⟩ |
    ⟨-, -, -, n, hinsert⟩ | ⟨-, -, -, b₂, hinsert, -⟩
  · omega
  · rw [hb₁.readOnly, hw] at hro
    cases hro
  · simp only [hinsert, hback]
    exact .inl ⟨_, b₂, rfl, hb₂, .inr ⟨n, rfl⟩⟩
  · simp only [hinsert]
    exact .inr ⟨hle, hstop, hw, b₂, rfl, GapBuffer.replace_of_ok hb hdelete hinsert⟩

/-- Taking a splice back always succeeds. -/
theorem unsplice_ok (sb : StoredBuffer) (mem : Memory) {b : GapBuffer} (hb : b.WellFormed)
    {start stop : Nat} {text : List UInt8} (hle : start ≤ stop) (hstop : stop ≤ b.length) (hw : b.readOnly = false)
    (hsb : b.Becomes sb.buffer (b.contents.take start ++ text ++ b.contents.drop stop)) :
    ∃ b', sb.unsplice mem start ((b.contents.take stop).drop start) text =
        (.ok (), { sb with buffer := b' }) ∧ b.Becomes b' b.contents := by
  obtain ⟨b₁, hdelete, hb₁⟩ := GapBuffer.delete_inserted hb hle hstop hw hsb
  obtain ⟨b₂, hback, hb₂⟩ := GapBuffer.insert_back mem hb hle hstop hw hb₁
  refine ⟨b₂, ?_, hb₂⟩
  simp only [unsplice, hdelete, hback]

/-- The record of a splice holds both texts, whichever of the three kinds it is. -/
theorem recordSplice_eq (mem : Memory) (now : Nat) (sb : StoredBuffer) (cursor start : Nat)
    (removed text : List UInt8) :
    ∃ edit : Edit, edit.deletedText = removed ∧ edit.insertedText = text ∧
      sb.recordSplice mem now cursor start removed text =
        ((sb.history.record mem now start edit cursor (start + text.length)).1,
          { sb with
            history := (sb.history.record mem now start edit cursor (start + text.length)).2 }) := by
  unfold recordSplice
  by_cases hremoved : removed = []
  · subst hremoved
    exact ⟨.insert text, rfl, rfl, rfl⟩
  · by_cases htext : text = []
    · subst htext
      refine ⟨.delete removed, rfl, rfl, ?_⟩
      simp only [List.isEmpty_iff, if_neg hremoved, if_true]
      rfl
    · refine ⟨.replace removed text, rfl, rfl, ?_⟩
      simp only [List.isEmpty_iff, if_neg hremoved, if_neg htext]
      rfl

/-- Everything an edit can do. -/
theorem edit_cases (mem : Memory) (now : Nat) (hb : sb.buffer.WellFormed) (cursor start stop : Nat)
    (text : List UInt8) :
    (∃ e b' h', sb.edit mem now cursor start stop text =
        (.error e, { sb with buffer := b', history := h' }) ∧
      sb.buffer.Becomes b' sb.buffer.contents ∧
      (h' = sb.history ∧ (b' = sb.buffer ∨ ∃ n, e = .buffer (.allocationFailed n)) ∨
        ∃ edit cause, e = .history cause ∧ sb.history.record mem now start edit cursor
          (start + text.length) = (.error cause, h'))) ∨
    (start ≤ stop ∧ stop ≤ sb.buffer.length ∧ ∃ edit b' h',
      sb.edit mem now cursor start stop text =
        (.ok (start + text.length), { sb with buffer := b', history := h' }) ∧
      edit.deletedText = (sb.buffer.contents.take stop).drop start ∧ edit.insertedText = text ∧
      sb.buffer.Becomes b'
        (sb.buffer.contents.take start ++ text ++ sb.buffer.contents.drop stop) ∧
      sb.history.record mem now start edit cursor (start + text.length) = (.ok (), h')) := by
  unfold edit
  rcases splice_cases mem hb start stop text with ⟨e, b', hsplice, hb', hkept⟩ |
    ⟨hle, hstop, hw, b₁, hsplice, hb₁⟩
  · rw [hsplice]
    refine .inl ⟨_, b', sb.history, rfl, hb', .inl ⟨rfl, hkept.imp_right ?_⟩⟩
    rintro ⟨n, rfl⟩
    exact ⟨n, rfl⟩
  rw [hsplice]
  obtain ⟨edit, hdeleted, hinserted, hrecord⟩ := recordSplice_eq mem now { sb with buffer := b₁ }
    cursor start ((sb.buffer.contents.take stop).drop start) text
  simp only [hrecord]
  rcases hanswer : sb.history.record mem now start edit cursor (start + text.length) with
    ⟨cause | ⟨⟩, h'⟩
  · obtain ⟨b₂, hunsplice, hb₂⟩ :=
      unsplice_ok { sb with buffer := b₁, history := h' } mem hb hle hstop hw hb₁
    simp only [hunsplice]
    exact .inl ⟨_, b₂, h', rfl, hb₂, .inr ⟨edit, cause, rfl, hanswer⟩⟩
  · exact .inr ⟨hle, hstop, edit, b₁, h', rfl, hdeleted, hinserted, hb₁, hanswer⟩

end StoredBuffer

theorem StoredBuffer.capacity_edit (mem : Memory) (now : Nat) {sb : StoredBuffer}
    (hb : sb.buffer.WellFormed) (cursor start stop : Nat) (text : List UInt8) :
    (sb.edit mem now cursor start stop text).2.buffer.WellFormed ∧
      sb.buffer.capacity ≤ (sb.edit mem now cursor start stop text).2.buffer.capacity := by
  rcases sb.edit_cases mem now hb cursor start stop text with ⟨e, b', h', heq, hb', -⟩ |
    ⟨-, -, edit, b', h', heq, -, -, hb', -⟩
  · rw [heq]
    exact ⟨hb'.wellFormed, hb'.capacity⟩
  · rw [heq]
    exact ⟨hb'.wellFormed, hb'.capacity⟩

section InStep

variable {K : Transition} {limit limit' : Nat} {T : Nat → List UInt8} {sb : StoredBuffer}

/-- Edits keep a buffer in step with its history, whether they are accepted or refused, within any
limit that both texts keep to. -/
theorem InStep.edit_within (hs : InStep K limit T sb.buffer sb.history) (mem : Memory)
    (now cursor start stop : Nat) (text : List UInt8)
    (hK : start ≤ stop → stop ≤ sb.buffer.length → ∀ edit,
      K (sb.history.outline.newOperation now start edit cursor (start + text.length))
        sb.buffer.contents
        (sb.buffer.contents.take start ++ text ++ sb.buffer.contents.drop stop))
    (hle : limit ≤ limit')
    (hlimit : limit' ≤ (sb.edit mem now cursor start stop text).2.buffer.capacity)
    (hlength : (sb.edit mem now cursor start stop text).2.buffer.contents.length ≤ limit') :
    ∃ T', InStep K limit' T' (sb.edit mem now cursor start stop text).2.buffer
      (sb.edit mem now cursor start stop text).2.history := by
  rcases sb.edit_cases mem now hs.buffer cursor start stop text with
    ⟨e, b', h', heq, hb', ⟨rfl, -⟩ | ⟨edit, cause, -, hrecord⟩⟩ |
    ⟨hle', hstop, edit, b', h', heq, hdeleted, hinserted, hb', hrecord⟩
  · rw [heq] at hlimit ⊢
    exact ⟨T, (hs.becomes hb').raise hle hlimit⟩
  · obtain ⟨T', hs'⟩ := hs.record_error hrecord
    rw [heq] at hlimit ⊢
    exact ⟨T', (hs'.becomes hb').raise hle hlimit⟩
  · have hhead := GapBuffer.length_take_contents hs.buffer (Nat.le_trans hle' hstop)
    rw [heq] at hlimit hlength ⊢
    exact hs.record_ok hrecord hb'.wellFormed hle hlimit hlength
      ⟨_, _, hhead, hdeleted ▸ GapBuffer.eq_before_in_after hle' _, hinserted ▸ hb'.contents⟩
      (hb'.contents ▸ hK hle' hstop edit)

theorem InStep.edit (hs : InStep K limit T sb.buffer sb.history) (mem : Memory)
    (now cursor start stop : Nat) (text : List UInt8)
    (hK : start ≤ stop → stop ≤ sb.buffer.length → ∀ edit,
      K (sb.history.outline.newOperation now start edit cursor (start + text.length))
        sb.buffer.contents
        (sb.buffer.contents.take start ++ text ++ sb.buffer.contents.drop stop)) :
    ∃ limit' T', InStep K limit' T' (sb.edit mem now cursor start stop text).2.buffer
      (sb.edit mem now cursor start stop text).2.history := by
  obtain ⟨hb', hcap⟩ := StoredBuffer.capacity_edit mem now hs.buffer cursor start stop text
  exact ⟨_, hs.edit_within mem now cursor start stop text hK (Nat.le_trans hs.limit_le hcap)
    (Nat.le_refl _) (GapBuffer.length_contents_le hb')⟩

end InStep

end TextStore
