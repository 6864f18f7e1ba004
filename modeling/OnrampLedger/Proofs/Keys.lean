import OnrampLedger.Proofs.Steps

/-!
# Ids and keys as text

Two facts about the texts the service builds, on which every promise about repeats
rests.

Ids are drawn from a counter and printed as the count times an odd multiplier modulo
`2 ^ 48`, in twelve hex digits. Distinct counts below `2 ^ 48` print distinct ids
(`idText_injective`), and no id holds a colon (`noColon_idText`).

An idempotency key joins its source, reference, wallet and action with colons. The
reference may hold colons itself, so the text of a key does not in general give its
parts back. It does when the source, the wallet and the action hold none
(`IdempotencyKey.render_injective`), which is so of every key the engine writes: its
source is a source's name, its wallet a wallet's id and its action `credit` or `debit`.

## Main results

* `idText_injective` — ids drawn below `2 ^ 48` are distinct.
* `IdempotencyKey.render_injective` — keys with a colon-free source, wallet and action
  are told apart by their text.
-/

namespace OnrampLedger

/-- A text with no colon in it. -/
def Text.NoColon (s : String) : Prop := ':' ∉ s.toList

/-! ## Cutting at a separator -/

/-- A list cut at the first occurrence of a separator gives both sides back. -/
theorem eq_of_append_cons_eq {α : Type} {c : α} {x₁ x₂ z₁ z₂ : List α} (h₁ : c ∉ x₁)
    (h₂ : c ∉ x₂) (h : x₁ ++ c :: z₁ = x₂ ++ c :: z₂) : x₁ = x₂ ∧ z₁ = z₂ := by
  induction x₁ generalizing x₂ with
  | nil =>
    cases x₂ with
    | nil => simpa using h
    | cons y ys =>
      -- the separator would open `x₂`
      simp only [List.nil_append, List.cons_append, List.cons.injEq] at h
      exact absurd (by rw [h.1]; exact List.mem_cons_self) h₂
  | cons y ys ih =>
    cases x₂ with
    | nil =>
      simp only [List.nil_append, List.cons_append, List.cons.injEq] at h
      exact absurd (by rw [← h.1]; exact List.mem_cons_self) h₁
    | cons y' ys' =>
      simp only [List.cons_append, List.cons.injEq] at h
      obtain ⟨rfl, hrest⟩ := h
      obtain ⟨hys, hz⟩ := ih (fun hc => h₁ (List.mem_cons_of_mem _ hc))
        (fun hc => h₂ (List.mem_cons_of_mem _ hc)) hrest
      exact ⟨by rw [hys], hz⟩

/-! ## Ids -/

/-- A hex digit is never a colon. -/
theorem digitChar_ne_colon : ∀ d, d < 16 → Nat.digitChar d ≠ ':' := by decide

/-- Hex digits name their value. -/
theorem digitChar_injective : ∀ a, a < 16 → ∀ b, b < 16 → Nat.digitChar a = Nat.digitChar b → a = b := by
  decide

/-- A number is known below `16 ^ w` from its first `w` hex digits. -/
theorem mod_pow_eq_of_digits {v v' : Nat} {w : Nat}
    (h : ∀ i < w, v / 16 ^ i % 16 = v' / 16 ^ i % 16) : v % 16 ^ w = v' % 16 ^ w := by
  induction w with
  | zero => simp [Nat.mod_one]
  | succ w ih =>
    rw [Nat.mod_pow_succ, Nat.mod_pow_succ, ih (fun i hi => h i (by omega)), h w (by omega)]

/-- Numbers below `16 ^ w` have distinct `w`-digit hex forms. -/
theorem hexDigits_injective {v v' w : Nat} (hv : v < 16 ^ w) (hv' : v' < 16 ^ w)
    (h : Text.hexDigits v w = Text.hexDigits v' w) : v = v' := by
  have hpoint : ∀ i < w, v / 16 ^ i % 16 = v' / 16 ^ i % 16 := by
    intro i hi
    have hall := List.map_inj_left.mp h i (by simpa using hi)
    exact digitChar_injective _ (Nat.mod_lt _ (by norm_num)) _ (Nat.mod_lt _ (by norm_num))
      (by simpa [Nat.pow_eq] using hall)
  have hmod := mod_pow_eq_of_digits hpoint
  rwa [Nat.mod_eq_of_lt hv, Nat.mod_eq_of_lt hv'] at hmod

/-- **Ids drawn below `2 ^ 48` are distinct**: the multiplier is odd, so it permutes the
residues modulo `2 ^ 48`, and twelve hex digits print every residue apart. -/
theorem idText_injective {n m : Nat} (hn : n < 2 ^ 48) (hm : m < 2 ^ 48)
    (h : idText n = idText m) : n = m := by
  have hdigits : Text.hexDigits (n * 0x5DEECE66D % Nat.pow 2 48) 12 =
      Text.hexDigits (m * 0x5DEECE66D % Nat.pow 2 48) 12 :=
    String.ofList_inj.mp ((String.append_right_inj _).mp h)
  have hres : n * 0x5DEECE66D % 2 ^ 48 = m * 0x5DEECE66D % 2 ^ 48 :=
    hexDigits_injective (Nat.mod_lt _ (by norm_num)) (Nat.mod_lt _ (by norm_num)) hdigits
  have hmod : n ≡ m [MOD 2 ^ 48] := Nat.ModEq.cancel_right_of_coprime (by norm_num) hres
  exact Nat.ModEq.eq_of_lt_of_lt hmod hn hm

/-- No id holds a colon: its fixed prefix has none, and neither has a hex digit. -/
theorem noColon_idText (n : Nat) : Text.NoColon (idText n) := by
  intro hmem
  unfold idText at hmem
  simp only [String.toList_append, List.mem_append, String.toList_ofList, Text.hexDigits] at hmem
  rcases hmem with hprefix | hdigit
  · simp at hprefix
  · obtain ⟨i, -, hi⟩ := List.mem_map.mp hdigit
    exact digitChar_ne_colon _ (Nat.mod_lt _ (by norm_num)) hi

/-! ## Keys -/

theorem Source.noColon_name (t : Source) : Text.NoColon t.name := by
  cases t <;> simp [Text.NoColon, Source.name]

theorem Source.eq_name_of_ofName? {s : String} {t : Source} (h : Source.ofName? s = some t) :
    s = t.name := by
  unfold Source.ofName? at h
  split at h <;> cases h <;> rfl

namespace IdempotencyKey

theorem toList_render (k : IdempotencyKey) :
    k.render.toList = k.source.toList ++ ':' :: (k.reference.toList ++ ':' ::
      (k.wallet.toList ++ ':' :: k.action.toList)) := by
  simp [render, String.toList_append]

/-- The action is the last piece of a key's text. -/
theorem action_eq_of_render_eq {k k' : IdempotencyKey} (ha : Text.NoColon k.action)
    (ha' : Text.NoColon k'.action) (h : k.render = k'.render) : k.action = k'.action := by
  have hl := congrArg List.reverse (congrArg String.toList h)
  simp only [toList_render, List.reverse_append, List.reverse_cons, List.append_assoc,
    List.singleton_append] at hl
  have haction := (eq_of_append_cons_eq (by simpa [Text.NoColon] using ha)
    (by simpa [Text.NoColon] using ha') hl).1
  exact String.toList_inj.mp (List.reverse_inj.mp haction)

/-- A credit's key is never a debit's. -/
theorem credit_render_ne_debit (s r w s' r' w' : String) :
    (credit s r w).render ≠ (debit s' r' w').render := by
  intro h
  have := action_eq_of_render_eq (by simp [Text.NoColon, credit]) (by simp [Text.NoColon, debit]) h
  simp [credit, debit] at this

/-- **A key's text gives its parts back** when its source, wallet and action hold no
colon: read from the end, the action and the wallet are the last two pieces, and the
source is the first. -/
theorem render_injective {k k' : IdempotencyKey} (hs : Text.NoColon k.source)
    (hw : Text.NoColon k.wallet) (ha : Text.NoColon k.action) (hs' : Text.NoColon k'.source)
    (hw' : Text.NoColon k'.wallet) (ha' : Text.NoColon k'.action) (h : k.render = k'.render) :
    k = k' := by
  have hl := congrArg List.reverse (congrArg String.toList h)
  simp only [toList_render, List.reverse_append, List.reverse_cons, List.append_assoc,
    List.singleton_append] at hl
  have hnr {s : String} (hs : Text.NoColon s) : ':' ∉ s.toList.reverse := by
    simpa [Text.NoColon] using hs
  obtain ⟨haction, hl₁⟩ := eq_of_append_cons_eq (hnr ha) (hnr ha') hl
  obtain ⟨hwallet, hl₂⟩ := eq_of_append_cons_eq (hnr hw) (hnr hw') hl₁
  have hfront : k.source.toList ++ ':' :: k.reference.toList =
      k'.source.toList ++ ':' :: k'.reference.toList := by
    simpa using congrArg List.reverse hl₂
  obtain ⟨hsource, hreference⟩ := eq_of_append_cons_eq hs hs' hfront
  obtain ⟨s, r, w, a⟩ := k
  obtain ⟨s', r', w', a'⟩ := k'
  simp only [mk.injEq, ← String.toList_inj]
  exact ⟨hsource, hreference, List.reverse_inj.mp hwallet, List.reverse_inj.mp haction⟩

end IdempotencyKey

end OnrampLedger
