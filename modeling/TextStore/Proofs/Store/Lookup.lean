import TextStore.Proofs.Store.Consistency

/-!
# Looking up buffers

* `find?_modify`, `findName?_modify`, `currentBuffer?_modify` : looking up after one buffer was
  changed;
* `Consistent.findName?_eq`, `Consistent.currentBuffer?_eq` : in a consistent store a buffer is found
  by its name, and when it is current;
* `switchToName_of_error` and the lemmas after it : an operation that fails changes nothing.
-/

namespace TextStore.Store

variable {st : Store} {sb : StoredBuffer}

/-! ## Looking up -/

theorem find?_modify (st : Store) (id other : Nat) {f : StoredBuffer → StoredBuffer}
    (hf : ∀ sb, (f sb).id = sb.id) :
    (st.modify id f).find? other =
      (st.find? other).map fun sb => if sb.id = id then f sb else sb := by
  unfold modify find?
  rw [List.find?_map]
  congr 2
  funext sb
  by_cases hid : sb.id = id <;> simp [hid, hf]

theorem findName?_modify (st : Store) (id : Nat) (name : String) {f : StoredBuffer → StoredBuffer}
    (hf : ∀ sb, (f sb).name = sb.name) :
    (st.modify id f).findName? name =
      (st.findName? name).map fun sb => if sb.id = id then f sb else sb := by
  unfold modify findName?
  rw [List.find?_map]
  congr 2
  funext sb
  by_cases hid : sb.id = id <;> simp [hid, hf]

theorem currentBuffer?_modify (st : Store) (id : Nat) {f : StoredBuffer → StoredBuffer}
    (hf : ∀ sb, (f sb).id = sb.id) :
    (st.modify id f).currentBuffer? =
      st.currentBuffer?.map fun sb => if sb.id = id then f sb else sb := by
  unfold currentBuffer?
  show st.current.bind (st.modify id f).find? = _
  cases st.current with
  | none => rfl
  | some current => exact st.find?_modify id current hf

theorem current_of_currentBuffer? (hsb : st.currentBuffer? = some sb) : st.current = some sb.id := by
  obtain ⟨id, hid, hfind⟩ := Option.bind_eq_some_iff.1 hsb
  rw [(find?_split hfind).1]
  exact hid

theorem mem_of_currentBuffer? (hsb : st.currentBuffer? = some sb) : sb ∈ st.buffers := by
  obtain ⟨id, -, hfind⟩ := Option.bind_eq_some_iff.1 hsb
  exact List.mem_of_find?_eq_some hfind

theorem Consistent.currentBuffer?_eq (hc : st.Consistent) (hsb : sb ∈ st.buffers)
    (hcurrent : st.current = some sb.id) : st.currentBuffer? = some sb := by
  rw [currentBuffer?, hcurrent, Option.bind_some]
  exact hc.find?_eq hsb

theorem Consistent.findName?_eq (hc : st.Consistent) (hsb : sb ∈ st.buffers) {name : String}
    (hname : sb.name = some name) : st.findName? name = some sb := by
  obtain ⟨pre, post, hsplit⟩ := List.append_of_mem hsb
  have hne := hc.ne_name hsplit (by rw [hname]; rfl)
  rw [hname] at hne
  refine List.find?_eq_some_iff_append.2 ⟨by simp [hname], pre, post, hsplit, fun other hother => ?_⟩
  simp [hne other (List.mem_append_left _ hother)]

/-! ## Refusals -/

theorem Issues.of_error {result : Except StoreError Nat × Store} (hissues : st.Issues result)
    {e : StoreError} (he : result.1 = .error e) : result.2 = st := by
  rcases hissues with ⟨e', rfl⟩ | ⟨st', rfl, -⟩
  · rfl
  · cases he

theorem switchToName_of_error {now : Nat} {name : String} {e : StoreError}
    (he : (st.switchToName now name).1 = .error e) : (st.switchToName now name).2 = st := by
  unfold switchToName at he ⊢
  cases hsb : st.findName? name with
  | none => rfl
  | some sb =>
    rw [hsb] at he
    cases he

theorem deleteName_of_error {name : String} {e : StoreError}
    (he : (st.deleteName name).1 = .error e) : (st.deleteName name).2 = st := by
  unfold deleteName at he ⊢
  cases hindex : st.indexOfName? name with
  | none => rfl
  | some index =>
    rw [hindex] at he
    cases he

theorem rename_of_error {id : Nat} {name : String} {e : StoreError}
    (he : (st.rename id name).1 = .error e) : (st.rename id name).2 = st := by
  unfold rename at he ⊢
  cases hsb : st.find? id with
  | none => rfl
  | some sb =>
    rw [hsb] at he
    simp only at he ⊢
    split
    · rfl
    next hempty =>
    split
    · rfl
    next htaken =>
    rw [if_neg hempty, if_neg htaken] at he
    cases he

end TextStore.Store
