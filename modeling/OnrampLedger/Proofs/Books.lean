import OnrampLedger.Proofs.DecimalValue
import OnrampLedger.Proofs.Tables
import OnrampLedger.Ledger.Chain

/-!
# Balanced books

What the ledger promises of a store, wallet by wallet: the cached balance is the
credits less the debits of the wallet's entries, each side summed as the store sums
them; the entries chain from zero, each starting where the one before ended and
ending at its start moved by its amount; the balance is never below zero; and every
entry moves a positive amount of whole cents. `Store.BooksBalance` says exactly this.

It is kept because every change of a balance writes an entry that starts at the
balance and ends at the new one. To carry that through a run, the invariant `Books`
adds three things: wallet ids are distinct, entries belong to existing wallets, and
each wallet's newest entry ends at its balance. Everything a wallet's books say is read
off its entries and its balance alone (`EntryBooks`), so a change that keeps the
ledger and each wallet's id and balance keeps the books whatever else it changes.

## Main results

* `EntryBooks.snoc` — an entry that starts at the balance and ends at the balance it
  moves to keeps a wallet's books.
* `Books.record` — writing one entry together with its wallet's new balance keeps the
  books; `Books.addWallet` — so does opening an empty wallet.
* `Books.of_balances` — what keeps the ledger and the balances keeps the books.
* `Books.booksBalance` — the invariant gives balanced books.
-/

namespace OnrampLedger

/-! ## Chains and sums of one wallet -/

/-- A chain extended by one link holds when the chain holds and the link starts where
the chain ended and ends where its amount takes it. -/
theorem linked_append_singleton {p : Decimal} {ls : List ChainLink} {l : ChainLink} :
    Linked p (ls ++ [l]) ↔
      Linked p ls ∧ l.before = (ls.getLast?.map (·.after)).getD p ∧ l.after = l.expected := by
  induction ls generalizing p with
  | nil => simp [Linked]
  | cons m ms ih =>
      -- the last balance of `m :: ms` from `p` is the last balance of `ms` from where `m` ends
      have hlast : ((m :: ms).getLast?.map (·.after)).getD p =
          (ms.getLast?.map (·.after)).getD m.after := by
        cases h : ms.getLast? <;> simp [List.getLast?_cons, h]
      simp only [List.cons_append, Linked, ih, hlast, and_assoc]

namespace Store

theorem sumsOf_append_singleton (es : List LedgerEntry) (e : LedgerEntry) :
    sumsOf (es ++ [e]) =
      if e.type.isCredit then ((sumsOf es).1 + e.amount, (sumsOf es).2)
      else ((sumsOf es).1, (sumsOf es).2 + e.amount) := by
  simp only [sumsOf, List.foldl_append, List.foldl_cons, List.foldl_nil]

/-- The credits less the debits grow by a credit's amount and shrink by a debit's. -/
theorem value_net_append_singleton (es : List LedgerEntry) (e : LedgerEntry) :
    ((sumsOf (es ++ [e])).1 - (sumsOf (es ++ [e])).2).value =
      ((sumsOf es).1 - (sumsOf es).2).value +
        (if e.type.isCredit then e.amount.value else -e.amount.value) := by
  rw [sumsOf_append_singleton]
  split
  · simp only [Decimal.value_sub, Decimal.value_add]
    ring
  · simp only [Decimal.value_sub, Decimal.value_add]
    ring

end Store

theorem EntryType.value_applyTo (t : EntryType) (b a : Decimal) :
    (t.applyTo b a).value = b.value + (if t.isCredit then a.value else -a.value) := by
  unfold EntryType.applyTo
  split <;> simp [sub_eq_add_neg]

/-- The books of one wallet, read off its entries `es`, oldest first, and its cached
balance. -/
structure EntryBooks (es : List LedgerEntry) (balance : Decimal) : Prop where
  balance_eq : balance = (Store.sumsOf es).1 - (Store.sumsOf es).2
  linked : Linked 0 (es.map LedgerEntry.link)
  latest : (es.getLast?.map (·.after)).getD 0 = balance
  nonneg : 0 ≤ balance

namespace EntryBooks

/-- A wallet with no entries balances at zero. -/
theorem nil : EntryBooks [] 0 where
  balance_eq := by simp [Decimal.value_inj.symm, Store.sumsOf]
  linked := trivial
  latest := rfl
  nonneg := by rw [Decimal.le_iff_value]

/-- **One entry keeps the books**: an entry that starts at the wallet's balance, ends at
that balance moved by its amount in its direction, and does not end below zero. -/
theorem snoc {es : List LedgerEntry} {b : Decimal} {e : LedgerEntry} (h : EntryBooks es b)
    (hbefore : e.before = b) (hafter : e.after = e.type.applyTo b e.amount)
    (hnonneg : ¬ e.after < 0) : EntryBooks (es ++ [e]) e.after where
  balance_eq := by
    rw [← Decimal.value_inj, Store.value_net_append_singleton, ← h.balance_eq, hafter,
      EntryType.value_applyTo]
  linked := by
    rw [List.map_append, List.map_singleton, linked_append_singleton]
    refine ⟨h.linked, ?_, ?_⟩
    · have hview : (es.map LedgerEntry.link).getLast?.map (·.after) = es.getLast?.map (·.after) := by
        rw [List.getLast?_map, Option.map_map]
        rfl
      rw [hview, h.latest]
      exact hbefore
    · simp only [LedgerEntry.link, ChainLink.expected, hafter, hbefore, EntryType.applyTo]
  latest := by simp
  nonneg := by
    rw [Decimal.lt_iff_value, not_lt] at hnonneg
    rw [Decimal.le_iff_value]
    simpa using hnonneg

end EntryBooks

/-! ## Books of a store -/

/-- Balanced books: for every wallet, (a) its cached balance is its credits less its
debits, (b) its entries chain from zero, (c) its balance is not below zero; and (d)
every entry moves a positive amount of whole cents. -/
structure Store.BooksBalance (s : Store) : Prop where
  balance_eq : ∀ w ∈ s.wallets, w.balance = s.ledgerBalance w.id
  chain_intact : ∀ w ∈ s.wallets, firstBreak ((s.entriesOf w.id).map LedgerEntry.link) = none
  balance_nonneg : ∀ w ∈ s.wallets, 0 ≤ w.balance
  amount_cents : ∀ e ∈ s.ledger, e.amount.IsPositive ∧ e.amount.HasCents

/-- The invariant the engine keeps between a store's wallets and its ledger: balanced
books, with distinct wallet ids and every entry belonging to an existing wallet. -/
structure Books (wallets : List Wallet) (ledger : List LedgerEntry) : Prop where
  ids_nodup : (wallets.map (·.id)).Nodup
  owned : ∀ e ∈ ledger, e.wallet ∈ wallets.map (·.id)
  books : ∀ w ∈ wallets, EntryBooks (ledger.filter (·.wallet == w.id)) w.balance
  amount_cents : ∀ e ∈ ledger, e.amount.IsPositive ∧ e.amount.HasCents

namespace Books

variable {ws ws' : List Wallet} {l : List LedgerEntry} {w w' : Wallet} {e : LedgerEntry}

theorem booksBalance {s : Store} (h : Books s.wallets s.ledger) : s.BooksBalance where
  balance_eq w hw := (h.books w hw).balance_eq
  chain_intact w hw := (firstBreakFrom_eq_none_iff 0 0 _).mpr (h.books w hw).linked
  balance_nonneg w hw := (h.books w hw).nonneg
  amount_cents := h.amount_cents

theorem empty : Books [] [] where
  ids_nodup := List.nodup_nil
  owned := by simp
  books := by simp
  amount_cents := by simp

/-- **Frame**: wallets with the same ids and balances in the same order have the same
books, whatever else their rows say. -/
theorem of_balances (h : Books ws l)
    (hb : ws'.map (fun w => (w.id, w.balance)) = ws.map (fun w => (w.id, w.balance))) :
    Books ws' l := by
  have hids : ws'.map (·.id) = ws.map (·.id) := by
    have := congrArg (List.map Prod.fst) hb
    simpa [Function.comp_def] using this
  refine ⟨hids ▸ h.ids_nodup, fun e he => hids ▸ h.owned e he, ?_, h.amount_cents⟩
  intro v hv
  have hpair : (v.id, v.balance) ∈ ws.map (fun w => (w.id, w.balance)) :=
    hb ▸ List.mem_map_of_mem hv
  obtain ⟨u, hu, hpu⟩ := List.mem_map.mp hpair
  simp only [Prod.mk.injEq] at hpu
  rw [← hpu.1, ← hpu.2]
  exact h.books u hu

/-- **Opening a wallet** keeps the books: a wallet with a new id and a zero balance has
no entries yet, since every entry belongs to an existing wallet. -/
theorem addWallet (h : Books ws l) (hnew : ws.find? (·.id == w.id) = none)
    (hzero : w.balance = 0) : Books (ws ++ [w]) l := by
  have hfresh : w.id ∉ ws.map (·.id) := by
    simp only [List.find?_eq_none, beq_iff_eq] at hnew
    simpa using hnew
  have hnone : l.filter (·.wallet == w.id) = [] := by
    simp only [List.filter_eq_nil_iff, beq_iff_eq]
    intro e he hwe
    exact hfresh (hwe ▸ h.owned e he)
  refine ⟨?_, ?_, ?_, h.amount_cents⟩
  · simpa [List.nodup_append] using
      ⟨h.ids_nodup, fun u hu hid => hfresh (hid ▸ List.mem_map_of_mem hu)⟩
  · intro e he
    simpa using Or.inl (by simpa using h.owned e he)
  · intro u hu
    rcases List.mem_append.mp hu with hu | hu
    · exact h.books u hu
    · rw [List.mem_singleton.mp hu, hnone, hzero]
      exact EntryBooks.nil

/-- **Recording a change keeps the books**: an entry of an existing wallet that starts
at the wallet's balance and ends, not below zero, where its amount takes it, written
together with the wallet's new balance. -/
theorem record (h : Books ws l) (hw : ws.find? (·.id == w.id) = some w) (hid : w'.id = w.id)
    (hbal : w'.balance = e.after) (hwallet : e.wallet = w.id) (hbefore : e.before = w.balance)
    (hafter : e.after = e.type.applyTo w.balance e.amount) (hnonneg : ¬ e.after < 0)
    (hamount : e.amount.IsPositive ∧ e.amount.HasCents) :
    Books (replaceFirst (·.id == w'.id) w' ws) (l ++ [e]) := by
  have hmem : w ∈ ws := List.mem_of_find?_eq_some hw
  have hids : (replaceFirst (·.id == w'.id) w' ws).map (·.id) = ws.map (·.id) :=
    map_key_replaceFirst
  have hself : (l ++ [e]).filter (·.wallet == w.id) = l.filter (·.wallet == w.id) ++ [e] := by
    simp [List.filter_append, hwallet]
  have hother : ∀ id, id ≠ w.id → (l ++ [e]).filter (·.wallet == id) = l.filter (·.wallet == id) := by
    intro id hne
    simp [List.filter_append, hwallet, Ne.symm hne]
  refine ⟨hids ▸ h.ids_nodup, ?_, ?_, ?_⟩
  · intro e' he'
    rw [hids]
    rcases List.mem_append.mp he' with he' | he'
    · exact h.owned e' he'
    · rw [List.mem_singleton.mp he', hwallet]
      exact List.mem_map_of_mem hmem
  · intro v hv
    rcases mem_replaceFirst_of_nodup h.ids_nodup hv with rfl | ⟨hv, hne⟩
    · rw [hid, hself, hbal]
      exact (h.books w hmem).snoc hbefore hafter hnonneg
    · rw [hother v.id (hid ▸ hne)]
      exact h.books v hv
  · intro e' he'
    rcases List.mem_append.mp he' with he' | he'
    · exact h.amount_cents e' he'
    · rw [List.mem_singleton.mp he']
      exact hamount

end Books

end OnrampLedger
