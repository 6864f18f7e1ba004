import OnrampLedger.Proofs.Keys

/-!
# Reading idempotency keys back

A key's text is its four parts joined by colons. It is read back by cutting the text at
every colon, taking the first piece as the source and the last two as wallet and action,
and joining the pieces between into the reference. The reference may hold colons of its
own (every transfer's does); the source, the wallet and the action do not.

Cutting a text at one of its colons cuts the two sides apart (`Text.splitAt_append_sep`),
so the pieces of a key's text are the source, the pieces of its reference, the wallet
and the action, and reading joins the reference's pieces back together. The other way
round, a text with at least three colons has at least four pieces, so it is read, and
the key read from it writes it back.

## Main results

* `IdempotencyKey.parse?_render` — a key whose source, wallet and action hold no colon is
  read back from its text.
* `IdempotencyKey.render_of_three_colons` — a text with three colons or more is the text of
  the key read from it.
* `IdempotencyKey.isValid_render_iff` — such a key's text is valid exactly when its parts
  are.
* `IdempotencyKey.keys_read_back` — the four facts together, injectivity included.
-/

namespace OnrampLedger

namespace Text

theorem splitAtAux_append_sep (sep : Char) (a b acc : List Char) :
    splitAtAux sep (a ++ sep :: b) acc = splitAtAux sep a acc ++ splitAt sep b := by
  induction a generalizing acc with
  | nil => simp [splitAtAux, splitAt]
  | cons c a ih =>
    simp only [List.cons_append, splitAtAux]
    split
    · simp [ih]
    · exact ih _

/-- Cutting at a separator cuts the two sides of it apart. -/
theorem splitAt_append_sep (sep : Char) (a b : List Char) :
    splitAt sep (a ++ sep :: b) = splitAt sep a ++ splitAt sep b :=
  splitAtAux_append_sep sep a b []

theorem splitAtAux_of_not_mem {sep : Char} {a : List Char} (h : sep ∉ a) (acc : List Char) :
    splitAtAux sep a acc = [acc.reverse ++ a] := by
  induction a generalizing acc with
  | nil => simp [splitAtAux]
  | cons c a ih =>
    have hc : c ≠ sep := fun e => h (e ▸ List.mem_cons_self)
    simp [splitAtAux, hc, ih (fun m => h (List.mem_cons_of_mem _ m))]

/-- A text without the separator is one piece. -/
theorem splitAt_of_not_mem {sep : Char} {a : List Char} (h : sep ∉ a) : splitAt sep a = [a] := by
  simp [splitAt, splitAtAux_of_not_mem h]

theorem length_splitAtAux (sep : Char) (cs acc : List Char) :
    (splitAtAux sep cs acc).length = cs.count sep + 1 := by
  induction cs generalizing acc with
  | nil => simp [splitAtAux]
  | cons c cs ih =>
    simp only [splitAtAux]
    split
    · next h => simp [ih, h]
    · next h => simp [ih, h]

/-- `n` separators cut a text into `n + 1` pieces. -/
theorem length_splitAt (sep : Char) (cs : List Char) :
    (splitAt sep cs).length = cs.count sep + 1 :=
  length_splitAtAux sep cs []

theorem joinWith_append (sep : Char) {xs ys : List (List Char)} (hx : xs ≠ []) (hy : ys ≠ []) :
    joinWith sep (xs ++ ys) = joinWith sep xs ++ sep :: joinWith sep ys := by
  induction xs with
  | nil => exact absurd rfl hx
  | cons p ps ih =>
    cases ps with
    | nil => rw [List.singleton_append, joinWith_cons_of_ne_nil sep p hy]; rfl
    | cons q qs =>
      rw [List.cons_append, joinWith_cons_of_ne_nil sep p (by simp), ih (by simp),
        joinWith_cons_of_ne_nil sep p (by simp)]
      simp

end Text

theorem Source.isSome_ofName?_iff (s : String) :
    (Source.ofName? s).isSome ↔ s = "admin" ∨ s = "webhook" ∨ s = "user" := by
  unfold Source.ofName?
  split <;> simp_all

namespace IdempotencyKey

/-- A key that its text gives back: source, wallet and action hold no colon. The
reference may hold any. -/
def Readable (k : IdempotencyKey) : Prop :=
  Text.NoColon k.source ∧ Text.NoColon k.wallet ∧ Text.NoColon k.action

/-- A list of three items or more, its first three taken apart. -/
theorem exists_three_cons {α : Type} :
    ∀ {l : List α}, 3 ≤ l.length → ∃ x y z t, l = x :: y :: z :: t
  | x :: y :: z :: t, _ => ⟨x, y, z, t, rfl⟩
  | [], h | [_], h | [_, _], h => by simp at h

/-- Pieces read as a key: the first is the source, the last two wallet and action, and
the middle ones, at least one, are joined into the reference. -/
theorem ofPieces_eq {s w a : List Char} {mid : List (List Char)} (hmid : mid ≠ []) :
    ofPieces (s :: (mid ++ [w, a])) =
      some ⟨String.ofList s, String.ofList (Text.joinWith ':' mid), String.ofList w,
        String.ofList a⟩ := by
  unfold ofPieces
  split
  · next s' _ _ _ _ a' w' _ hps hrev =>
    obtain ⟨rfl, -⟩ := List.cons.inj hps
    simp only [List.reverse_cons, List.reverse_append, List.reverse_nil, List.nil_append,
      List.cons_append, List.cons.injEq] at hrev
    obtain ⟨rfl, rfl, -⟩ := hrev
    simp
  · next hnot =>
    -- four pieces or more always match the first pattern
    have hlen : 3 ≤ (mid ++ [w, a]).length := by
      have := List.length_pos_of_ne_nil hmid
      simp; omega
    obtain ⟨x, y, z, t, hxyz⟩ := exists_three_cons hlen
    exact (hnot s x y z t a w (mid.reverse ++ [s]) (by rw [hxyz]) (by simp)).elim

/-- Four pieces or more are a first one, at least one in the middle, and a last two. -/
theorem exists_pieces {ps : List (List Char)} (h : 4 ≤ ps.length) :
    ∃ s mid w a, mid ≠ [] ∧ ps = s :: (mid ++ [w, a]) := by
  obtain ⟨s, rest, rfl⟩ := List.exists_cons_of_length_pos (show 0 < ps.length by omega)
  have hrest : 3 ≤ rest.reverse.length := by simp at h ⊢; omega
  obtain ⟨a, w, m, t, hrev⟩ := exists_three_cons hrest
  refine ⟨s, (m :: t).reverse, w, a, by simp, ?_⟩
  rw [← List.reverse_reverse rest, hrev]
  simp

/-- **A key is read back from its text** when its source, wallet and action hold no
colon: those three are one piece each, and the reference's pieces are joined again. -/
theorem parse?_render {k : IdempotencyKey} (hk : k.Readable) : parse? k.render = some k := by
  obtain ⟨hs, hw, ha⟩ := hk
  have hpieces : Text.splitAt ':' k.render.toList =
      k.source.toList ::
        (Text.splitAt ':' k.reference.toList ++ [k.wallet.toList, k.action.toList]) := by
    rw [toList_render, Text.splitAt_append_sep, Text.splitAt_append_sep, Text.splitAt_append_sep,
      Text.splitAt_of_not_mem hs, Text.splitAt_of_not_mem hw, Text.splitAt_of_not_mem ha]
    simp
  have hmid : Text.splitAt ':' k.reference.toList ≠ [] := Text.splitAtAux_ne_nil ':' _ []
  rw [parse?, hpieces, ofPieces_eq hmid, Text.join_splitAt]
  simp

/-- **A text with three colons or more is read**, and the key read from it writes it
back: its pieces, joined again, are the text. -/
theorem render_of_three_colons {text : String} (h : 3 ≤ text.toList.count ':') :
    ∃ k, parse? text = some k ∧ k.render = text := by
  have hlen : 4 ≤ (Text.splitAt ':' text.toList).length := by
    rw [Text.length_splitAt]; omega
  obtain ⟨s, mid, w, a, hmid, hps⟩ := exists_pieces hlen
  refine ⟨_, by rw [parse?, hps, ofPieces_eq hmid], ?_⟩
  apply String.toList_inj.mp
  calc (render _).toList
      = s ++ ':' :: (Text.joinWith ':' mid ++ ':' :: (w ++ ':' :: a)) := by simp [toList_render]
    _ = Text.joinWith ':' (s :: (mid ++ [w, a])) := by
      rw [Text.joinWith_cons_of_ne_nil ':' s (by simp), Text.joinWith_append ':' hmid (by simp)]
      rfl
    _ = text.toList := by rw [← hps, Text.join_splitAt]

/-- Keys that their texts give back are told apart by their texts. -/
theorem eq_of_render_eq {k k' : IdempotencyKey} (hk : k.Readable) (hk' : k'.Readable)
    (h : k.render = k'.render) : k = k' := by
  have hsome : some k = some k' := by rw [← parse?_render hk, ← parse?_render hk', h]
  exact Option.some_inj.mp hsome

/-- The text of a key that it gives back is valid exactly when its source is a known
one, its action is `credit` or `debit`, and its reference and wallet are not empty. -/
theorem isValid_render_iff {k : IdempotencyKey} (hk : k.Readable) :
    isValid k.render = true ↔
      (k.source = "admin" ∨ k.source = "webhook" ∨ k.source = "user") ∧
        (k.action = "credit" ∨ k.action = "debit") ∧ k.reference ≠ "" ∧ k.wallet ≠ "" := by
  simp only [isValid, parse?_render hk, Bool.and_eq_true, bne_iff_ne, ne_eq, Bool.or_eq_true,
    beq_iff_eq, Source.isSome_ofName?_iff]
  tauto

/-- **Idempotency keys and their texts.** A key whose source, wallet and action hold no
colon is read back from its text, whatever colons its reference holds; every text with
at least three colons is read, and is the text of the key read from it. So such keys are
told apart by their texts, and such a key's text is valid exactly when its parts are. -/
theorem keys_read_back :
    (∀ k : IdempotencyKey, k.Readable → parse? k.render = some k) ∧
    (∀ text : String, 3 ≤ text.toList.count ':' → ∃ k, parse? text = some k ∧ k.render = text) ∧
    (∀ k k' : IdempotencyKey, k.Readable → k'.Readable → k.render = k'.render → k = k') ∧
    (∀ k : IdempotencyKey, k.Readable →
      (isValid k.render = true ↔
        (k.source = "admin" ∨ k.source = "webhook" ∨ k.source = "user") ∧
          (k.action = "credit" ∨ k.action = "debit") ∧ k.reference ≠ "" ∧ k.wallet ≠ "")) :=
  ⟨fun _ hk => parse?_render hk, fun _ h => render_of_three_colons h,
    fun _ _ hk hk' h => eq_of_render_eq hk hk' h, fun _ hk => isValid_render_iff hk⟩

/-- A transfer's debit key, whose reference holds a colon, is read back and is valid. -/
theorem keys_read_back_transferDebit :
    (⟨"user", "transfer:42", "w9", "debit"⟩ : IdempotencyKey).Readable ∧
      parse? (⟨"user", "transfer:42", "w9", "debit"⟩ : IdempotencyKey).render =
        some ⟨"user", "transfer:42", "w9", "debit"⟩ ∧
      isValid (⟨"user", "transfer:42", "w9", "debit"⟩ : IdempotencyKey).render = true := by
  have hk : (⟨"user", "transfer:42", "w9", "debit"⟩ : IdempotencyKey).Readable := by
    refine ⟨?_, ?_, ?_⟩ <;> simp [Text.NoColon]
  exact ⟨hk, keys_read_back.1 _ hk, (keys_read_back.2.2.2 _ hk).mpr (by decide)⟩

end IdempotencyKey

end OnrampLedger
