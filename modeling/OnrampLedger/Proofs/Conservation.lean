import OnrampLedger.Proofs.Money
import OnrampLedger.Proofs.Provenance

/-!
# Transfers move money and make none

A transfer writes a `transfer_out` entry on its source and a `transfer_in` entry of the
same amount on its target, together, between two different wallets of one currency. If
no other operation wrote either type, the two kinds of entries would pair up one to one,
and the wallets' balances would add up to the deposits less the withdrawals and trades.

Debits refuse the transfer types, and every payment, manual credit and replay credits a
deposit; but a credit may ask for any credit type, `transfer_in` among them, and such a
credit is a `transfer_in` with no `transfer_out` (`credit_of_transfer_in_unpaired`). So
the pairing and the sum hold of the runs whose credits ask for deposits
(`Command.CreditsDeposits`).

The sum is read off the books. Each wallet's balance is the signed sum of its entries
(`Books`), wallet ids are distinct and every entry belongs to a wallet, so the balances
add up to the signed sum of the whole ledger (`Books.sum_balances`), in which each pair
of legs cancels.

## Main results

* `Command.transfer_pairs` — in such a run, the `transfer_out` and the `transfer_in`
  entries are the two sides of one list of pairs, each written by one transfer.
* `Books.sum_balances` — the balances add up to the signed sum of the ledger.
* `transfers_conserve_money` — the pairing, and the balances adding up to the deposits
  less the withdrawals and trades.
-/

namespace OnrampLedger

/-! ## Sums of entries -/

/-- What an entry does to its wallet's balance, as a number: a credit adds its amount,
every other entry takes it away. -/
def LedgerEntry.signedValue (e : LedgerEntry) : ℚ :=
  if e.type.isCredit then e.amount.value else -e.amount.value

/-- The amounts of the entries whose type passes `p`, added up as numbers. -/
def totalOf (p : EntryType → Bool) (l : List LedgerEntry) : ℚ :=
  ((l.filter (fun e => p e.type)).map (·.amount.value)).sum

/-- The credits less the debits of a list of entries, as the store sums them, is the sum
of their signed amounts. -/
theorem Store.sumsOf_value (es : List LedgerEntry) :
    ((Store.sumsOf es).1 - (Store.sumsOf es).2).value = (es.map (·.signedValue)).sum := by
  induction es using List.reverseRecOn with
  | nil => simp [Store.sumsOf]
  | append_singleton es e ih =>
    rw [Store.value_net_append_singleton, ih, List.map_append, List.sum_append]
    simp [LedgerEntry.signedValue]

/-- Summed over wallets with distinct ids, a quantity that only the wallet with id `id`
has is that wallet's. -/
theorem sum_map_ite_id {ws : List Wallet} (hnodup : (ws.map (·.id)).Nodup) {id : String}
    (hid : id ∈ ws.map (·.id)) (a : ℚ) :
    (ws.map (fun w => if w.id = id then a else 0)).sum = a := by
  induction ws with
  | nil => simp at hid
  | cons w ws ih =>
    rw [List.map_cons, List.nodup_cons] at hnodup
    rw [List.map_cons, List.sum_cons]
    by_cases hw : w.id = id
    · -- no other wallet has the id
      have hrest : (ws.map (fun w => if w.id = id then a else 0)).sum = 0 := by
        refine List.sum_eq_zero fun x hx => ?_
        obtain ⟨v, hv, rfl⟩ := List.mem_map.mp hx
        have hne : v.id ≠ id := fun h => hnodup.1 (hw ▸ h ▸ List.mem_map_of_mem hv)
        simp [hne]
      rw [if_pos hw, hrest, add_zero]
    · have hid' : id ∈ ws.map (·.id) := by
        rw [List.map_cons, List.mem_cons] at hid
        exact hid.resolve_left (Ne.symm hw)
      rw [if_neg hw, ih hnodup.2 hid', zero_add]

/-- Entries that each belong to one of wallets with distinct ids, summed wallet by wallet,
add up to their sum. -/
theorem sum_filter_wallet {ws : List Wallet} (hnodup : (ws.map (·.id)).Nodup)
    {l : List LedgerEntry} (howned : ∀ e ∈ l, e.wallet ∈ ws.map (·.id)) (f : LedgerEntry → ℚ) :
    (ws.map (fun w => ((l.filter (·.wallet == w.id)).map f).sum)).sum = (l.map f).sum := by
  induction l with
  | nil => simp
  | cons e l ih =>
    have hsplit : ∀ w : Wallet, (((e :: l).filter (·.wallet == w.id)).map f).sum =
        (if w.id = e.wallet then f e else 0) + ((l.filter (·.wallet == w.id)).map f).sum := by
      intro w
      by_cases h : w.id = e.wallet
      · simp [h]
      · simp [Ne.symm h, h]
    simp only [hsplit, List.sum_map_add]
    rw [sum_map_ite_id hnodup (howned e List.mem_cons_self),
      ih fun e he => howned e (List.mem_cons_of_mem _ he), List.map_cons, List.sum_cons]

/-- **The balances add up to the ledger**: with balanced books, the wallets' balances add
up to the signed sum of all entries. -/
theorem Books.sum_balances {ws : List Wallet} {l : List LedgerEntry} (h : Books ws l) :
    (ws.map (·.balance.value)).sum = (l.map (·.signedValue)).sum := by
  have hbalance : ∀ w ∈ ws, w.balance.value =
      ((l.filter (·.wallet == w.id)).map (·.signedValue)).sum := by
    intro w hw
    rw [(h.books w hw).balance_eq, Store.sumsOf_value]
  rw [List.map_congr_left hbalance]
  exact sum_filter_wallet h.ids_nodup h.owned _

/-- The signed sum of entries, by type: deposits and incoming transfers add, outgoing
transfers, withdrawals and trades take away. -/
theorem sum_signedValue (l : List LedgerEntry) :
    (l.map (·.signedValue)).sum = totalOf (· == .deposit) l + totalOf (· == .transferIn) l -
      totalOf (· == .transferOut) l - totalOf (fun t => t == .withdrawal || t == .trading) l := by
  induction l with
  | nil => simp [totalOf]
  | cons e l ih =>
    rw [List.map_cons, List.sum_cons, ih]
    cases h : e.type <;> simp [totalOf, LedgerEntry.signedValue, h, EntryType.isCredit] <;> ring

/-! ## Which entries are transfer legs -/

namespace Command

/-- A command that credits deposits only: a credit asks for no entry type, which is a
deposit, or for `deposit`. -/
def CreditsDeposits : Command → Prop
  | .credit r => r.type = "" ∨ r.type = "deposit"
  | _ => True

/-- The `i`-th command of a run from `W` wrote the transfer legs `out` and `inward`: it is a
transfer between two different wallets of one currency, and appended these two legs. -/
def TransferredAt (cs : List Command) (W : World) (i : Nat) (out inward : LedgerEntry) : Prop :=
  ∃ r, cs[i]? = some (.transfer r) ∧ Wallets.TransferLegs r out inward ∧
    (∃ src dst, (runAll (cs.take i) W).store.wallet? r.source = some src ∧
      (runAll (cs.take i) W).store.wallet? r.target = some dst ∧ r.source ≠ r.target ∧
      src.currency = dst.currency) ∧
    (runAll (cs.take (i + 1)) W).store.ledger = (runAll (cs.take i) W).store.ledger ++ [out, inward]

/-- What the `i`-th command of a run did stays what the `i`-th command of a longer run
did. -/
theorem TransferredAt.append {cs : List Command} {W : World} {i : Nat} {out inward : LedgerEntry}
    (h : TransferredAt cs W i out inward) (ds : List Command) :
    TransferredAt (cs ++ ds) W i out inward := by
  obtain ⟨r, hc, hlegs, hwallets, hl⟩ := h
  have hi : i < cs.length := (List.getElem?_eq_some_iff.mp hc).1
  refine ⟨r, by rw [List.getElem?_append_left hi]; exact hc, hlegs, ?_, ?_⟩
  · rwa [List.take_append_of_le_length hi.le]
  · rwa [List.take_append_of_le_length hi.le, List.take_append_of_le_length hi]

end Command

namespace Wallets

/-- A credit asking for a deposit writes a deposit. -/
theorem CreditEntry.type_deposit {r : CreditRequest} {e : LedgerEntry} (he : CreditEntry r e)
    (hr : r.type = "" ∨ r.type = "deposit") : e.type = .deposit := by
  have htype := he.type
  have hname : (if r.type = "" then "deposit" else r.type) = "deposit" := by
    rcases hr with hr | hr <;> simp [hr]
  rw [hname] at htype
  exact (Option.some_injective _ htype).symm

/-- A withdrawal or a trade is no transfer leg. -/
theorem DebitEntry.not_leg {r : DebitRequest} {e : LedgerEntry} (he : DebitEntry r e) :
    e.type ≠ .transferOut ∧ e.type ≠ .transferIn := by
  rcases he.type with h | h <;> rw [h] <;> decide

end Wallets

namespace Command

/-- **Transfer legs come from transfers**: of what a command crediting deposits only
appends, no entry is a transfer leg, or the command is a transfer and appended its two
legs. -/
theorem Appends.legs {c : Command} {W : World} {es : List LedgerEntry} (h : c.Appends W es)
    (hc : c.CreditsDeposits) :
    (∀ e ∈ es, e.type ≠ .transferOut ∧ e.type ≠ .transferIn) ∨
      ∃ r out inward, c = .transfer r ∧ Wallets.TransferLegs r out inward ∧
        (∃ src dst, W.store.wallet? r.source = some src ∧ W.store.wallet? r.target = some dst ∧
          r.source ≠ r.target ∧ src.currency = dst.currency) ∧ es = [out, inward] := by
  -- the one entry of a credit, whose type is a deposit
  have deposit {r : CreditRequest} {e : LedgerEntry} (he : Wallets.CreditEntry r e)
      (hr : r.type = "" ∨ r.type = "deposit") : ∀ x ∈ [e], x.type ≠ .transferOut ∧ x.type ≠ .transferIn := by
    intro x hx
    rw [List.mem_singleton.mp hx, he.type_deposit hr]
    decide
  cases c <;> simp only [Appends] at h
  case transfer r =>
    rcases h with rfl | ⟨out, inward, hlegs, hwallets, rfl⟩
    · exact .inl (by simp)
    · exact .inr ⟨r, out, inward, rfl, hlegs, hwallets, rfl⟩
  case debit =>
    rcases h with rfl | ⟨e, he, rfl⟩
    · exact .inl (by simp)
    · refine .inl fun x hx => ?_
      rw [List.mem_singleton.mp hx]
      exact he.not_leg
  case credit =>
    rcases h with rfl | ⟨e, he, rfl⟩
    exacts [.inl (by simp), .inl (deposit he hc)]
  case manualCredit =>
    rcases h with rfl | ⟨e, he, rfl⟩
    exacts [.inl (by simp), .inl (deposit he (.inr rfl))]
  case process =>
    rcases h with rfl | ⟨_, e, -, he, rfl⟩
    exacts [.inl (by simp), .inl (deposit he (.inr rfl))]
  case replayMissing =>
    rcases h with rfl | ⟨_, _, e, -, he, rfl⟩
    exacts [.inl (by simp), .inl (deposit he (.inr rfl))]
  all_goals
    subst h
    exact .inl (by simp)

/-- **Transfer legs pair up**: in a run from an empty ledger whose credits ask for
deposits, the `transfer_out` entries and the `transfer_in` entries are, in ledger order,
the first and the second sides of one list of pairs, each pair the two legs one
transfer of the run wrote. -/
theorem transfer_pairs {cs : List Command} {W : World} (hW : W.store.ledger = [])
    (hcs : ∀ c ∈ cs, c.CreditsDeposits) :
    ∃ pairs : List (LedgerEntry × LedgerEntry),
      (runAll cs W).store.ledger.filter (·.type == .transferOut) = pairs.map Prod.fst ∧
      (runAll cs W).store.ledger.filter (·.type == .transferIn) = pairs.map Prod.snd ∧
      ∀ p ∈ pairs, ∃ i, TransferredAt cs W i p.1 p.2 := by
  -- induction from the end of the run: the last command adds a pair or no leg
  induction cs using List.reverseRecOn with
  | nil => exact ⟨[], by simp [hW], by simp [hW], by simp⟩
  | append_singleton cs c ih =>
    obtain ⟨pairs, hout, hin, hpairs⟩ := ih fun d hd => hcs d (List.mem_append_left _ hd)
    obtain ⟨es, happ, hes⟩ := (run_step c (runAll cs W)).appends
    have hledger : (runAll (cs ++ [c]) W).store.ledger = (runAll cs W).store.ledger ++ es := by
      rw [runAll_append, runAll_cons, runAll_nil, hes]
    rcases happ.legs (hcs c (List.mem_append_right _ List.mem_cons_self)) with
      hnone | ⟨r, out, inward, rfl, hlegs, hwallets, rfl⟩
    · refine ⟨pairs, ?_, ?_, fun p hp => ?_⟩
      · rw [hledger, List.filter_append, hout, List.filter_eq_nil_iff.mpr, List.append_nil]
        intro e he
        simpa using (hnone e he).1
      · rw [hledger, List.filter_append, hin, List.filter_eq_nil_iff.mpr, List.append_nil]
        intro e he
        simpa using (hnone e he).2
      · obtain ⟨i, hi⟩ := hpairs p hp
        exact ⟨i, hi.append [_]⟩
    -- a transfer: its two legs are the new pair, written by the last command
    · refine ⟨pairs ++ [(out, inward)], ?_, ?_, fun p hp => ?_⟩
      · rw [hledger, List.filter_append, hout]
        simp [hlegs.outType, hlegs.inType]
      · rw [hledger, List.filter_append, hin]
        simp [hlegs.outType, hlegs.inType]
      · rcases List.mem_append.mp hp with hp | hp
        · obtain ⟨i, hi⟩ := hpairs p hp
          exact ⟨i, hi.append [_]⟩
        · rw [List.mem_singleton.mp hp]
          have hall : (cs ++ [Command.transfer r]).take (cs.length + 1) = cs ++ [.transfer r] :=
            List.take_of_length_le (by simp)
          have hcs' : (cs ++ [Command.transfer r]).take cs.length = cs := by simp
          refine ⟨cs.length, r, by simp, hlegs, by rwa [hcs'], ?_⟩
          rw [hall, hcs', runAll_append, runAll_cons, runAll_nil, hes]

end Command

/-- **Transfers conserve money**, in the runs whose credits ask for deposits. In every
world such a run reaches from an empty store, the `transfer_out` and the `transfer_in`
entries pair up one to one, each pair of equal amounts on two different wallets and
written by one transfer of the run between wallets of one currency; and the wallets'
balances add up to the deposits less the withdrawals and trades. -/
theorem transfers_conserve_money (cs : List Command) (w : World)
    (hcs : ∀ c ∈ cs, c.CreditsDeposits) :
    let W₀ : World := { w with store := Store.empty }
    let W := Command.runAll cs W₀
    (∃ pairs : List (LedgerEntry × LedgerEntry),
      W.store.ledger.filter (·.type == .transferOut) = pairs.map Prod.fst ∧
      W.store.ledger.filter (·.type == .transferIn) = pairs.map Prod.snd ∧
      ∀ p ∈ pairs, p.1.amount = p.2.amount ∧ p.1.wallet ≠ p.2.wallet ∧
        ∃ i, Command.TransferredAt cs W₀ i p.1 p.2) ∧
    (W.store.wallets.map (·.balance.value)).sum =
      totalOf (· == .deposit) W.store.ledger -
        totalOf (fun t => t == .withdrawal || t == .trading) W.store.ledger := by
  intro W₀ W
  obtain ⟨pairs, hout, hin, hpairs⟩ := @Command.transfer_pairs cs W₀ rfl hcs
  -- the two legs of a pair: equal amounts, different wallets
  have hpair : ∀ p ∈ pairs, p.1.amount = p.2.amount ∧ p.1.wallet ≠ p.2.wallet := by
    intro p hp
    obtain ⟨i, r, -, hlegs, ⟨-, -, -, -, hdiff, -⟩, -⟩ := hpairs p hp
    exact ⟨hlegs.outAmount.trans hlegs.inAmount.symm,
      by rw [hlegs.outWallet, hlegs.inWallet]; exact hdiff⟩
  -- so the outgoing legs add up to the incoming ones
  have hlegs : totalOf (· == .transferOut) W.store.ledger =
      totalOf (· == .transferIn) W.store.ledger := by
    unfold totalOf
    rw [hout, hin, List.map_map, List.map_map]
    exact congrArg List.sum (List.map_congr_left fun p hp => by
      simp [(hpair p hp).1])
  refine ⟨⟨pairs, hout, hin, fun p hp => ⟨(hpair p hp).1, (hpair p hp).2, hpairs p hp⟩⟩, ?_⟩
  rw [(Command.books_runAll cs w).sum_balances, sum_signedValue, hlegs]
  ring

/-- A run with a deposit, a transfer and a withdrawal credits deposits only. -/
theorem transfers_conserve_money_depositTransferRent :
    let admin : Actor := ⟨"root", "admin"⟩
    let owner : Actor := ⟨"s", "user"⟩
    let cs : List Command := [.createWallet "s" "USD", .createWallet "r" "USD",
      .credit ⟨idText 1, 10, "", "a", "", "admin", "", false, admin⟩,
      .transfer ⟨idText 1, idText 2, 3, "x", owner⟩,
      .debit ⟨idText 1, 2, "", "rent", owner⟩]
    let w := Setup.world {}
    let W := Command.runAll cs { w with store := Store.empty }
    (∀ c ∈ cs, c.CreditsDeposits) ∧
      (W.store.wallets.map (·.balance.value)).sum =
        totalOf (· == .deposit) W.store.ledger -
          totalOf (fun t => t == .withdrawal || t == .trading) W.store.ledger := by
  intro admin owner cs w
  have hcs : ∀ c ∈ cs, c.CreditsDeposits := by
    intro c hc
    simp only [cs, List.mem_cons, List.not_mem_nil, or_false] at hc
    -- the one credit asks for no type
    rcases hc with rfl | rfl | rfl | rfl | rfl
    exacts [trivial, trivial, .inl rfl, trivial, trivial]
  exact ⟨hcs, (transfers_conserve_money cs w hcs).2⟩

/-- A credit may ask for `transfer_in`: after one, the ledger holds a `transfer_in` entry
and no `transfer_out` entry, and the one wallet holds 10 with nothing deposited. -/
theorem credit_of_transfer_in_unpaired :
    let admin : Actor := ⟨"root", "admin"⟩
    let W := Command.runAll [.createWallet "s" "USD",
      .credit ⟨idText 1, 10, "transfer_in", "a", "", "admin", "", false, admin⟩] (Setup.world {})
    W.store.ledger.map (·.type) = [.transferIn] ∧ W.store.wallets.map (·.balance) = [10] := by
  decide +kernel

end OnrampLedger
