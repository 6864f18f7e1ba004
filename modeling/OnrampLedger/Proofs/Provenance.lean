import OnrampLedger.Proofs.Idempotency

/-!
# Which operation wrote an entry

Every entry of a run's ledger was appended by one command of the run, as that command's
kind of write posts it (`Command.appended_of_mem`, `Command.Appends`). An entry's key is
derived from its own source, reference, wallet and direction (`Store.Keyed`), and those
parts are read back from the key whenever the wallet holds no colon. So the key a repeat
finds names the kind of operation that wrote it, up to one overlap.

A debit derives the key `user:<reference>:<wallet>:debit`, and a transfer's debit leg
`user:transfer:<reference>:<source>:debit`. A debit on a transfer's source whose reference
is `transfer:` followed by the transfer's reference derives the transfer's key, and is
answered as a repeat of the transfer (`Wallets.debit_after_transfer_repeats`). Where no
debit's reference starts with `transfer:`, a repeat answers only for an earlier run of the
same operation.

## Main results

* `Command.debit_entry_origin` — an entry of debit direction was written by a debit or
  as a transfer's debit leg.
* `repeats_only_of_same_operation` — a debit or a transfer answered as a repeat answers
  for an earlier debit on the same wallet, or transfer from the same wallet, with the
  same reference, which posted its entries.
-/

namespace OnrampLedger

open Std.Do

set_option mvcgen.warning false

/-! ## Reading a debit key back -/

/-- An entry under the key of a user's debit of a wallet with no colon in its id is an
entry of debit direction with that reference, on that wallet. -/
theorem Store.Keyed.debitKey_entry {s : Store} (h : s.Keyed) {ref wallet : String}
    {e : LedgerEntry} (he : s.entryByKey? (IdempotencyKey.debit "user" ref wallet).render = some e)
    (hwallet : Text.NoColon wallet) :
    e ∈ s.ledger ∧ e.reference = ref ∧ e.wallet = wallet ∧ e.type.isCredit = false := by
  unfold Store.entryByKey? at he
  rw [if_neg (IdempotencyKey.render_ne_empty _)] at he
  have hmem : e ∈ s.ledger := List.mem_of_find?_eq_some he
  have hkey : e.key = (IdempotencyKey.debit "user" ref wallet).render := by
    simpa using List.find?_some he
  have hparts : IdempotencyKey.ofEntry e = IdempotencyKey.debit "user" ref wallet := by
    have haction : Text.NoColon (if e.type.isCredit then "credit" else "debit") := by
      split <;> simp [Text.NoColon]
    refine IdempotencyKey.render_injective (Source.noColon_name e.source)
      (h.entryWallets e hmem) haction (by simp [Text.NoColon, IdempotencyKey.debit]) hwallet
      (by simp [Text.NoColon, IdempotencyKey.debit]) ?_
    rw [← h.key e hmem, hkey]
  simp only [IdempotencyKey.ofEntry, IdempotencyKey.debit, IdempotencyKey.mk.injEq] at hparts
  obtain ⟨-, href, hwal, hdir⟩ := hparts
  refine ⟨hmem, href, hwal, ?_⟩
  revert hdir
  cases e.type.isCredit <;> simp

/-! ## Which command appended an entry -/

namespace Command

/-- **An entry of debit direction is a debit's or a transfer's debit leg**: of what a
command appends, such an entry is the one entry of a debit, or the first of a
transfer's two legs. -/
theorem Appends.debit_origin {c : Command} {W : World} {es : List LedgerEntry} {e : LedgerEntry}
    (h : c.Appends W es) (he : e ∈ es) (hdebit : e.type.isCredit = false) :
    (∃ r, c = .debit r ∧ Wallets.DebitEntry r e ∧ es = [e]) ∨
      ∃ r inward, c = .transfer r ∧ Wallets.TransferLegs r e inward ∧ es = [e, inward] := by
  cases c <;> simp only [Appends] at h
  case debit r =>
    rcases h with rfl | ⟨e', he', rfl⟩
    · simp at he
    · rw [List.mem_singleton.mp he]
      exact .inl ⟨r, rfl, he', rfl⟩
  case transfer r =>
    rcases h with rfl | ⟨out, inward, hlegs, -, rfl⟩
    · simp at he
    rcases List.mem_pair.mp he with rfl | rfl
    · exact .inr ⟨r, inward, rfl, hlegs, rfl⟩
    · rw [hlegs.inType] at hdebit
      cases hdebit
  -- every kind of credit appends one entry of credit direction
  case credit =>
    rcases h with rfl | ⟨e', he', rfl⟩
    · simp at he
    · rw [List.mem_singleton.mp he, he'.credit] at hdebit
      cases hdebit
  case manualCredit =>
    rcases h with rfl | ⟨e', he', rfl⟩
    · simp at he
    · rw [List.mem_singleton.mp he, he'.credit] at hdebit
      cases hdebit
  case process =>
    rcases h with rfl | ⟨_, e', -, he', rfl⟩
    · simp at he
    · rw [List.mem_singleton.mp he, he'.credit] at hdebit
      cases hdebit
  case replayMissing =>
    rcases h with rfl | ⟨_, _, e', -, he', rfl⟩
    · simp at he
    · rw [List.mem_singleton.mp he, he'.credit] at hdebit
      cases hdebit
  all_goals
    subst h
    simp at he

/-- **Every entry of debit direction in a run's ledger was written by a debit or as a
transfer's debit leg**, by the `i`-th command of the run. -/
theorem debit_entry_origin {cs : List Command} {W : World} (hW : W.store.ledger = [])
    {e : LedgerEntry} (he : e ∈ (runAll cs W).store.ledger) (hdebit : e.type.isCredit = false) :
    ∃ i, (∃ r, cs[i]? = some (.debit r) ∧ Wallets.DebitEntry r e ∧
        (runAll (cs.take (i + 1)) W).store.ledger = (runAll (cs.take i) W).store.ledger ++ [e]) ∨
      ∃ r inward, cs[i]? = some (.transfer r) ∧ Wallets.TransferLegs r e inward ∧
        (runAll (cs.take (i + 1)) W).store.ledger =
          (runAll (cs.take i) W).store.ledger ++ [e, inward] := by
  obtain ⟨i, c, es, hc, happ, hl, hmem⟩ := appended_of_mem hW he
  refine ⟨i, ?_⟩
  rcases happ.debit_origin hmem hdebit with ⟨r, rfl, hentry, rfl⟩ | ⟨r, inward, rfl, hlegs, rfl⟩
  · exact .inl ⟨r, hc, hentry, hl⟩
  · exact .inr ⟨r, inward, hc, hlegs, hl⟩

end Command

/-! ## Repeats -/

namespace Wallets

/-- A debit answered as a repeat found its key on an entry, and its wallet, in the store
it started from. -/
theorem debit_duplicate (W₀ : World) (r : DebitRequest) :
    ⦃fun W => ⌜W = W₀⌝⦄ debit r
    ⦃post⟨fun v _ => ⌜v.duplicate = true → (∃ e, W₀.store.entryByKey? (debitKey r) = some e) ∧
        ∃ w, W₀.store.wallet? r.wallet = some w⌝, fun _ _ => ⌜True⌝⟩⦄ := by
  mvcgen [debit, replayedFor, duplicateView]
  all_goals simp_all +zetaDelta [debitKey, Wallet.view, ← Option.isSome_iff_exists]

/-- A transfer answered as a repeat found its debit leg's key on an entry, and its
source wallet, in the store it started from. -/
theorem transfer_duplicate (W₀ : World) (r : TransferRequest) :
    ⦃fun W => ⌜W = W₀⌝⦄ transfer r
    ⦃post⟨fun v _ => ⌜v.duplicate = true →
        (∃ e, W₀.store.entryByKey? (transferOutKey r) = some e) ∧
        ∃ w, W₀.store.wallet? r.source = some w⌝, fun _ _ => ⌜True⌝⟩⦄ := by
  mvcgen [transfer, replayedFor, duplicateView]
  all_goals simp_all +zetaDelta [transferOutKey, Wallet.view, ← Option.isSome_iff_exists]

/-- **A debit collides with a transfer**: once a transfer's debit leg is on the ledger, a
valid debit by the owner of the transfer's source, on that wallet, whose reference is
`transfer:` followed by the transfer's reference, derives the same key and is answered as
a repeat of the transfer, writing nothing. -/
theorem debit_after_transfer_repeats (W : World) {t : TransferRequest} {d : DebitRequest}
    {e : LedgerEntry} {w : Wallet} (he : W.store.entryByKey? (transferOutKey t) = some e)
    (hwallet : d.wallet = t.source) (href : d.reference = "transfer:" ++ t.reference)
    (hvalid : DebitValid d) (hactor : d.actor.id ≠ "") (hw : W.store.wallet? d.wallet = some w)
    (howner : w.userId = d.actor.id) :
    (debit d).exec W = (.ok (repeatView w e), W) := by
  have hkey : debitKey d = transferOutKey t := by
    rw [debitKey, transferOutKey, hwallet, href]
  exact debit_repeat W d hvalid hactor (hkey ▸ he) hw howner

end Wallets

/-- **A repeat answers for the same operation**, where no debit's reference starts with
`transfer:`. In every world a run of such commands reaches from an empty store, a debit
with such a reference answered as a repeat answers for an earlier debit on the same
wallet with the same reference, which posted its entry; and a transfer answered as a
repeat answers for an earlier transfer from the same wallet with the same reference,
which posted both its legs. -/
theorem repeats_only_of_same_operation (cs : List Command) (w : World)
    (hdebits : ∀ r, Command.debit r ∈ cs → ∀ R, r.reference ≠ "transfer:" ++ R) :
    let W₀ : World := { w with store := Store.empty }
    let W := Command.runAll cs W₀
    (∀ (r : DebitRequest) v, (∀ R, r.reference ≠ "transfer:" ++ R) →
      ((Wallets.debit r).exec W).1 = .ok v → v.duplicate = true →
      ∃ i r' e, cs[i]? = some (.debit r') ∧ r'.wallet = r.wallet ∧
        r'.reference = r.reference ∧ Wallets.DebitEntry r' e ∧
        (Command.runAll (cs.take (i + 1)) W₀).store.ledger =
          (Command.runAll (cs.take i) W₀).store.ledger ++ [e]) ∧
    (∀ (r : TransferRequest) v, ((Wallets.transfer r).exec W).1 = .ok v → v.duplicate = true →
      ∃ i r' out inward, cs[i]? = some (.transfer r') ∧ r'.source = r.source ∧
        r'.reference = r.reference ∧ Wallets.TransferLegs r' out inward ∧
        (Command.runAll (cs.take (i + 1)) W₀).store.ledger =
          (Command.runAll (cs.take i) W₀).store.ledger ++ [out, inward]) := by
  intro W₀ W
  have hkeyed : W.store.Keyed := Command.keyed_runAll cs w
  have hempty : W₀.store.ledger = [] := rfl
  -- a wallet found in the store has an id with no colon
  have hnoColon : ∀ {id : String} {v : Wallet}, W.store.wallet? id = some v → Text.NoColon id := by
    intro id v hv
    rw [← Store.id_of_wallet? hv]
    exact hkeyed.walletIds v (List.mem_of_find?_eq_some hv)
  constructor
  · intro r v href hok hdup
    obtain ⟨⟨e, he⟩, _, hw⟩ := Op.ok_of_triple (Wallets.debit_duplicate W r) rfl hok hdup
    obtain ⟨hmem, heref, hewallet, hdir⟩ := hkeyed.debitKey_entry he (hnoColon hw)
    obtain ⟨i, ⟨r', hc, hentry, hl⟩ | ⟨r', inward, hc, hlegs, -⟩⟩ :=
      Command.debit_entry_origin hempty hmem hdir
    · exact ⟨i, r', e, hc, hentry.wallet ▸ hewallet, hentry.reference ▸ heref, hentry, hl⟩
    -- a transfer's debit leg has a reference starting with `transfer:`
    · exact absurd (heref ▸ hlegs.outReference) (href r'.reference)
  · intro r v hok hdup
    obtain ⟨⟨e, he⟩, _, hw⟩ := Op.ok_of_triple (Wallets.transfer_duplicate W r) rfl hok hdup
    obtain ⟨hmem, heref, hewallet, hdir⟩ := hkeyed.debitKey_entry he (hnoColon hw)
    obtain ⟨i, ⟨r', hc, hentry, -⟩ | ⟨r', inward, hc, hlegs, hl⟩⟩ :=
      Command.debit_entry_origin hempty hmem hdir
    -- the debit's reference would start with `transfer:`
    · exact absurd (hentry.reference ▸ heref) (hdebits r' (List.mem_of_getElem? hc) r.reference)
    · have hsame : "transfer:" ++ r'.reference = "transfer:" ++ r.reference :=
        hlegs.outReference ▸ heref
      exact ⟨i, r', e, inward, hc, hlegs.outWallet ▸ hewallet,
        (String.append_right_inj "transfer:").mp hsame, hlegs, hl⟩

/-- The precondition is needed: after a transfer with reference `x`, its sender's debit
of the transfer's source with reference `transfer:x` is answered as a repeat, though
the run holds no debit. -/
theorem debit_answered_for_transfer :
    let admin : Actor := ⟨"root", "admin"⟩
    let sender : Actor := ⟨"s", "user"⟩
    let cs : List Command := [.createWallet "s" "USD", .createWallet "r" "USD",
      .credit ⟨idText 1, 10, "", "a", "", "admin", "", false, admin⟩,
      .transfer ⟨idText 1, idText 2, 3, "x", sender⟩]
    (∀ c ∈ cs, ∀ r, c ≠ .debit r) ∧
      ((Wallets.debit ⟨idText 1, 1, "", "transfer:x", sender⟩).exec
        (Command.runAll cs (Setup.world {}))).1.toOption.map (·.duplicate) = some true := by
  refine ⟨fun c hc r => ?_, by decide +kernel⟩
  simp only [List.mem_cons, List.not_mem_nil, or_false] at hc
  rcases hc with rfl | rfl | rfl | rfl <;> simp

/-- A debit repeated after it posted answers for itself. -/
theorem repeats_only_of_same_operation_rentTwice :
    let admin : Actor := ⟨"root", "admin"⟩
    let owner : Actor := ⟨"s", "user"⟩
    let cs : List Command := [.createWallet "s" "USD",
      .credit ⟨idText 1, 10, "", "a", "", "admin", "", false, admin⟩,
      .debit ⟨idText 1, 4, "", "rent", owner⟩]
    (∀ r, Command.debit r ∈ cs → ∀ R, r.reference ≠ "transfer:" ++ R) ∧
      ∃ (i : Nat) (r' : DebitRequest) (e : LedgerEntry), cs[i]? = some (.debit r') ∧
        r'.reference = "rent" ∧ Wallets.DebitEntry r' e := by
  intro admin owner cs
  have hrent : ∀ R, "rent" ≠ "transfer:" ++ R := by
    intro R hR
    have hlength := congrArg String.length hR
    have hprefix : "transfer:".length = 9 := by decide
    have hrent : "rent".length = 4 := by decide
    rw [String.length_append, hprefix, hrent] at hlength
    omega
  have hdebits : ∀ r, Command.debit r ∈ cs → ∀ R, r.reference ≠ "transfer:" ++ R := by
    intro r hr
    simp only [cs, List.mem_cons, List.not_mem_nil, or_false, reduceCtorEq, false_or,
      Command.debit.injEq] at hr
    rw [hr]
    exact hrent
  obtain ⟨v, hv, hdup⟩ : ∃ v, ((Wallets.debit ⟨idText 1, 4, "", "rent", owner⟩).exec
      (Command.runAll cs { Setup.world {} with store := Store.empty })).1 = .ok v ∧
      v.duplicate = true := by
    have hanswer : ((Wallets.debit ⟨idText 1, 4, "", "rent", owner⟩).exec
        (Command.runAll cs { Setup.world {} with store := Store.empty })).1.toOption.map
          (·.duplicate) = some true := by
      decide +kernel
    revert hanswer
    rcases ((Wallets.debit ⟨idText 1, 4, "", "rent", owner⟩).exec
      (Command.runAll cs { Setup.world {} with store := Store.empty })).1 with _ | v
    · simp [Except.toOption]
    · intro hanswer
      exact ⟨v, rfl, by simpa [Except.toOption] using hanswer⟩
  obtain ⟨i, r', e, hc, -, hr, hentry, -⟩ :=
    (repeats_only_of_same_operation cs (Setup.world {}) hdebits).1 _ v hrent hv hdup
  exact ⟨hdebits, i, r', e, hc, hr, hentry⟩

end OnrampLedger
