import OnrampLedger.Proofs.Books
import OnrampLedger.Proofs.Exec
import OnrampLedger.Service.Wallets

/-!
# Where a chain that holds ends

Two readings of a wallet's entries are written independently: the chain check
(`firstBreak`) walks the entries link by link, and the ledger sums (`Store.sumsOf`) add
the credits and the debits apart. Both take an entry's direction from its type alone: a
credit type adds its amount, and every other type takes it away, a type whose name names
no type included (in the chain view that is just `credit = false`).

So the two agree: a chain that holds from zero ends at the credits less the debits, which
is the balance the ledger sums give, and the integrity view of a wallet whose chain is
intact shows the newest entry's closing balance equal to the ledger balance. When the
chain check fails, the position it reports is the first link that breaks: every link
before it holds, and it does not.

## Main results

* `Linked.end_value` — a chain that holds from `p` ends at `p` plus its credits less its
  debits, whatever the links' directions and amounts.
* `Store.sumsOf_credits_debits` — the ledger sums are the credits' amounts and the other
  entries' amounts, each added up.
* `firstBreakFrom_eq_some` — a reported break is at the first link that breaks.
* `chain_end_agrees_with_sums` — all of it, and the integrity view.
-/

namespace OnrampLedger

open Std.Do

set_option mvcgen.warning false

/-! ## The end of a chain -/

/-- The last closing balance of a chain that goes on from `l`'s: the chain's own last,
or `l`'s when the chain is empty. -/
theorem getLast?_after_cons (l : ChainLink) (ls : List ChainLink) (p : Decimal) :
    ((l :: ls).getLast?.map (·.after)).getD p = (ls.getLast?.map (·.after)).getD l.after := by
  cases h : ls.getLast? <;> simp [List.getLast?_cons, h]

/-- A link that holds ends at its start moved by its amount, as a number. -/
theorem ChainLink.value_expected (l : ChainLink) :
    l.expected.value = l.before.value + (if l.credit then l.amount.value else -l.amount.value) := by
  unfold ChainLink.expected
  split <;> simp [sub_eq_add_neg]

/-- **A chain that holds from `p` ends at `p` plus its credits less its debits**: the
amounts of the links marked as credits, less the amounts of all the others. -/
theorem Linked.end_value {p : Decimal} {ls : List ChainLink} (h : Linked p ls) :
    ((ls.getLast?.map (·.after)).getD p).value =
      p.value + ((ls.filter (·.credit)).map (·.amount.value)).sum -
        ((ls.filter fun l => !l.credit).map (·.amount.value)).sum := by
  induction ls generalizing p with
  | nil => simp
  | cons l ls ih =>
    obtain ⟨hbefore, hafter, hrest⟩ := h
    -- the rest of the chain starts where `l` ends, which is `p` moved by `l`'s amount
    have hstep : l.after.value = p.value + (if l.credit then l.amount.value else -l.amount.value) := by
      rw [hafter, ChainLink.value_expected, hbefore]
    rw [getLast?_after_cons, ih hrest, hstep]
    cases hc : l.credit <;> simp [hc] <;> ring

/-! ## The ledger sums -/

/-- **The ledger sums**: the first is the credits' amounts added up, the second the
amounts of every other entry. -/
theorem Store.sumsOf_credits_debits (es : List LedgerEntry) :
    (Store.sumsOf es).1.value = ((es.filter (·.type.isCredit)).map (·.amount.value)).sum ∧
      (Store.sumsOf es).2.value =
        ((es.filter fun e => !e.type.isCredit).map (·.amount.value)).sum := by
  induction es using List.reverseRecOn with
  | nil => simp [Store.sumsOf]
  | append_singleton es e ih =>
    rw [Store.sumsOf_append_singleton]
    cases hc : e.type.isCredit <;> simp [List.filter_append, hc, ih.1, ih.2]

/-- The chain view of entries keeps the newest entry's closing balance. -/
theorem getLast?_after_link (es : List LedgerEntry) :
    (es.map LedgerEntry.link).getLast?.map (·.after) = es.getLast?.map (·.after) := by
  rw [List.getLast?_map, Option.map_map]
  rfl

/-- Entries whose chain holds from zero end at their credits less their debits, as the
ledger sums them. -/
theorem end_eq_sums_of_linked {es : List LedgerEntry} (h : Linked 0 (es.map LedgerEntry.link)) :
    (es.getLast?.map (·.after)).getD 0 = (Store.sumsOf es).1 - (Store.sumsOf es).2 := by
  have hend := h.end_value
  rw [getLast?_after_link] at hend
  obtain ⟨hcredits, hdebits⟩ := Store.sumsOf_credits_debits es
  rw [← Decimal.value_inj, Decimal.value_sub, hend, hcredits, hdebits]
  simp [List.filter_map, Function.comp_def, LedgerEntry.link]

/-- A wallet whose chain is intact has its newest closing balance equal to its ledger
balance. -/
theorem Store.latestAfter_eq_ledgerBalance (s : Store) (wallet : String)
    (h : firstBreak ((s.entriesOf wallet).map LedgerEntry.link) = none) :
    s.latestAfter wallet = s.ledgerBalance wallet :=
  end_eq_sums_of_linked ((firstBreakFrom_eq_none_iff 0 0 _).mp h)

/-! ## The integrity view -/

/-- The integrity view reads the store and changes nothing: its balances are the store's
ledger balance and newest closing balance, and the chain is intact when the check finds
no break. -/
theorem Wallets.integrity_spec (W₀ : World) (id : String) :
    ⦃fun W => ⌜W = W₀⌝⦄ Wallets.integrity id
    ⦃post⟨fun i W => ⌜W = W₀ ∧ i.ledgerBalance = W₀.store.ledgerBalance id ∧
        i.latestAfter = W₀.store.latestAfter id ∧
        i.chainIntact = (firstBreak ((W₀.store.entriesOf id).map LedgerEntry.link)).isNone⌝,
      fun _ W => ⌜W = W₀⌝⟩⦄ := by
  mvcgen [Wallets.integrity]
  all_goals simp_all +zetaDelta

/-! ## Where a chain breaks -/

/-- The position a break reports. -/
def ChainBreak.index : ChainBreak → Nat
  | .startsElsewhere i .. => i
  | .endsElsewhere i .. => i

/-- **A reported break is the first**: the check of a chain numbered from `k` and
starting at `p` reports the position `k + i` of a link before which the chain holds and
at which it does not. -/
theorem firstBreakFrom_eq_some {p : Decimal} {k : Nat} {ls : List ChainLink} {b : ChainBreak}
    (h : firstBreakFrom p k ls = some b) :
    ∃ i < ls.length, b.index = k + i ∧ Linked p (ls.take i) ∧ ¬ Linked p (ls.take (i + 1)) := by
  induction ls generalizing p k with
  | nil => cases h
  | cons l ls ih =>
    simp only [firstBreakFrom] at h
    split at h
    · -- the first link starts elsewhere
      cases h
      exact ⟨0, by simp, rfl, trivial, by simp [Linked, *]⟩
    split at h
    · -- the first link starts right and ends elsewhere
      cases h
      exact ⟨0, by simp, rfl, trivial, by simp [Linked, *]⟩
    -- the first link holds: the break is in the rest, one position on
    obtain ⟨i, hi, hidx, hlinked, hbroken⟩ := ih h
    refine ⟨i + 1, by simpa using hi, by rw [hidx]; omega, ?_, ?_⟩
    · simp_all [Linked]
    · simp_all [Linked]

/-- **The chain check and the ledger sums agree.** For every list of links, with any
directions and amounts (an entry whose type names no type is a debit): a chain the check
passes ends at its credits less its debits. For every list of entries: a chain the check
passes ends at the credits less the debits the ledger sums give, so the integrity view of
a wallet whose chain is intact shows its newest closing balance equal to its ledger
balance. A break the check reports is at the first position where a link does not start
where the one before ended (zero for the first) or does not end where its amount takes
it. -/
theorem chain_end_agrees_with_sums :
    (∀ ls : List ChainLink, firstBreak ls = none →
      ((ls.getLast?.map (·.after)).getD (0 : Decimal)).value =
        ((ls.filter (·.credit)).map (·.amount.value)).sum -
          ((ls.filter fun l => !l.credit).map (·.amount.value)).sum) ∧
    (∀ es : List LedgerEntry, firstBreak (es.map LedgerEntry.link) = none →
      (es.getLast?.map (·.after)).getD 0 = (Store.sumsOf es).1 - (Store.sumsOf es).2) ∧
    (∀ (W : World) (id : String) (i : LedgerIntegrity),
      ((Wallets.integrity id).exec W).1 = .ok i → i.chainIntact = true →
        i.latestAfter = i.ledgerBalance) ∧
    (∀ (ls : List ChainLink) (b : ChainBreak), firstBreak ls = some b →
      b.index < ls.length ∧ Linked 0 (ls.take b.index) ∧ ¬ Linked 0 (ls.take (b.index + 1))) := by
  refine ⟨fun ls h => ?_, fun es h => end_eq_sums_of_linked ((firstBreakFrom_eq_none_iff 0 0 _).mp h),
    fun W id i hok hintact => ?_, fun ls b h => ?_⟩
  · have hend := ((firstBreakFrom_eq_none_iff 0 0 ls).mp h).end_value
    rw [hend, Decimal.value_zero, zero_add]
  · -- the view answered reads the store it started from
    have hend := Op.ends_of_triple (Wallets.integrity_spec W id) rfl
    revert hend hok
    rcases (Wallets.integrity id).exec W with ⟨_ | i', W'⟩
    · intro hok
      cases hok
    · rintro hok ⟨-, hledger, hlatest, hchain⟩
      cases hok
      rw [hintact, eq_comm, Option.isNone_iff_eq_none] at hchain
      rw [hledger, hlatest, Store.latestAfter_eq_ledgerBalance W.store id hchain]
  · obtain ⟨i, hi, hidx, hlinked, hbroken⟩ := firstBreakFrom_eq_some h
    rw [Nat.zero_add] at hidx
    exact ⟨hidx ▸ hi, hidx ▸ hlinked, hidx ▸ hbroken⟩

end OnrampLedger
