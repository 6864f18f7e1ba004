import Mathlib
import OnrampLedger.Store.Basic

/-!
# Tables of rows

Every table of the store is a list of rows in the order they were added. A row is
looked up as the first one with a property (`List.find?`) and written back by
replacing the first row with its id (`replaceFirst`). While the ids of a table are
distinct, which the operations keep, writing a row back is a point update: the row
with its id becomes the new one and every other row stays.

## Main results

* `find?_replaceFirst_self`, `find?_replaceFirst_of_ne` — a row written back is what
  its id now finds, and lookups of other ids are unchanged.
* `map_replaceFirst_of_find?` — a write-back that keeps what a view reads of the
  replaced row keeps the whole view.
* `mem_replaceFirst_of_nodup` — with distinct ids, the rows after a write-back are the
  new row and the rows of other ids.
-/

namespace OnrampLedger

variable {α β : Type} {key : α → String} {k : String} {x y : α} {l : List α}

theorem mem_replaceFirst {p : α → Bool} (h : y ∈ replaceFirst p x l) : y = x ∨ y ∈ l := by
  induction l with
  | nil => simp [replaceFirst] at h
  | cons z zs ih =>
      simp only [replaceFirst] at h
      split at h
      · rcases List.mem_cons.mp h with rfl | hy
        · exact .inl rfl
        · exact .inr (List.mem_cons_of_mem _ hy)
      · rcases List.mem_cons.mp h with rfl | hy
        · exact .inr List.mem_cons_self
        · exact (ih hy).imp_right (List.mem_cons_of_mem _)

/-- Writing back a row whose property holds makes it what the property finds first,
provided some row had the property. -/
theorem find?_replaceFirst_self {p : α → Bool} (hx : p x) (h : ∃ z ∈ l, p z) :
    (replaceFirst p x l).find? p = some x := by
  induction l with
  | nil => simp at h
  | cons z zs ih =>
      simp only [replaceFirst]
      split
      · simp [hx]
      · next hz =>
          have hzs : ∃ z ∈ zs, p z := by
            obtain ⟨y, hy, hpy⟩ := h
            rcases List.mem_cons.mp hy with rfl | hy
            · exact absurd hpy hz
            · exact ⟨y, hy, hpy⟩
          simp [hz, ih hzs]

/-- Lookups of a property that the written row lacks and that excludes the replaced
row see the table as it was. -/
theorem find?_replaceFirst_of_disjoint {p q : α → Bool} (hx : q x = false)
    (hpq : ∀ z, q z → p z = false) : (replaceFirst p x l).find? q = l.find? q := by
  induction l with
  | nil => rfl
  | cons z zs ih =>
      simp only [replaceFirst]
      split
      · next hz =>
          have hqz : q z = false := by
            cases hq : q z
            · rfl
            · simp [hpq z hq] at hz
          simp [hx, hqz]
      · simp [List.find?_cons, ih]

/-- A row written back under one id leaves the lookup of every other id alone. -/
theorem find?_replaceFirst_of_ne (hne : k ≠ key x) :
    (replaceFirst (fun z => key z == key x) x l).find? (fun z => key z == k) =
      l.find? (fun z => key z == k) := by
  apply find?_replaceFirst_of_disjoint
  · simpa using hne.symm
  · intro z hz
    simp only [beq_iff_eq] at hz
    simpa [hz] using hne

/-- A write-back that keeps what `f` reads of the row it replaces keeps the view
`map f` of the table. -/
theorem map_replaceFirst_of_find? {p : α → Bool} {f : α → β}
    (h : ∀ z, l.find? p = some z → f z = f x) : (replaceFirst p x l).map f = l.map f := by
  induction l with
  | nil => rfl
  | cons z zs ih =>
      simp only [replaceFirst]
      split
      · next hz => simp [h z (by simp [hz])]
      · next hz =>
          have hzs : ∀ y, zs.find? p = some y → f y = f x := fun y hy =>
            h y (by simp [hz, hy])
          simp [ih hzs]

/-- A write-back under an existing id keeps the ids of the table. -/
theorem map_key_replaceFirst :
    (replaceFirst (fun z => key z == key x) x l).map key = l.map key := by
  apply map_replaceFirst_of_find?
  intro z hz
  simpa using List.find?_some hz

/-- With distinct ids, a row after a write-back is the new row or a row of another
id that was there before. -/
theorem mem_replaceFirst_of_nodup (hl : (l.map key).Nodup)
    (h : y ∈ replaceFirst (fun z => key z == key x) x l) :
    y = x ∨ (y ∈ l ∧ key y ≠ key x) := by
  induction l with
  | nil => simp [replaceFirst] at h
  | cons z zs ih =>
      simp only [List.map_cons, List.nodup_cons, List.mem_map] at hl
      simp only [replaceFirst] at h
      split at h
      · next hz =>
          simp only [beq_iff_eq] at hz
          rcases List.mem_cons.mp h with rfl | hy
          · exact .inl rfl
          · refine .inr ⟨List.mem_cons_of_mem _ hy, fun hk => hl.1 ⟨y, hy, hk.trans hz.symm⟩⟩
      · next hz =>
          simp only [beq_iff_eq] at hz
          rcases List.mem_cons.mp h with rfl | hy
          · exact .inr ⟨List.mem_cons_self, hz⟩
          · exact (ih hl.2 hy).imp_right fun ⟨hm, hk⟩ => ⟨List.mem_cons_of_mem _ hm, hk⟩

/-- With distinct ids, a row of the table is what its id finds. -/
theorem find?_key_of_mem (hl : (l.map key).Nodup) (hx : x ∈ l) :
    l.find? (fun z => key z == key x) = some x := by
  induction l with
  | nil => simp at hx
  | cons z zs ih =>
      simp only [List.map_cons, List.nodup_cons, List.mem_map] at hl
      rcases List.mem_cons.mp hx with rfl | hx
      · simp
      · have hz : key z ≠ key x := fun h => hl.1 ⟨x, hx, h.symm⟩
        simp [hz, ih hl.2 hx]

/-- Writing back the first row with one property leaves what another property finds
first, when the new row and the replaced one agree on it and the row found lacks the
first property. -/
theorem find?_replaceFirst_of_agree {p q : α → Bool} {z : α}
    (hagree : ∀ w, l.find? q = some w → p x = p w) (hz : l.find? p = some z) (hqz : q z = false) :
    (replaceFirst q x l).find? p = some z := by
  induction l with
  | nil => simp at hz
  | cons w ws ih =>
      simp only [replaceFirst]
      split
      · next hqw =>
        -- the replaced row is the head; it is not the row found, so neither it nor the new
        -- row has the property
        have hpw : p w = false := by
          cases hp : p w
          · rfl
          · simp [hp] at hz
            rw [← hz] at hqz
            simp [hqz] at hqw
        have hpx : p x = false := by rw [hagree w (by simp [hqw]), hpw]
        simpa [List.find?_cons, hpx, hpw] using hz
      · next hqw =>
        cases hp : p w
        · have hz' : ws.find? p = some z := by simpa [List.find?_cons, hp] using hz
          have hagree' : ∀ v, ws.find? q = some v → p x = p v := fun v hv =>
            hagree v (by simp [hqw, hv])
          simp [hp, ih hagree' hz']
        · simpa [List.find?_cons, hp] using hz

end OnrampLedger
