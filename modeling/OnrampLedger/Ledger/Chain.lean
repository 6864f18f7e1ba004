import OnrampLedger.Ledger.Entry

/-!
# The entry chain of a wallet

A wallet's entries, in the order they were written, form a chain: the first starts from
a zero balance, each one starts where the one before it ended, and each one ends at its
start plus its amount (credits) or minus it (everything else). `firstBreak` walks the
chain and reports the first link that does not hold; `Linked` says the same thing as a
predicate, one link at a time.

The chain check reads only five things of an entry, gathered in `ChainLink`, so that it
applies equally to stored entries and to entries whose type text names no known type
(such a type counts as a debit).
-/

namespace OnrampLedger

/-- What the chain check reads of one entry. -/
structure ChainLink where
  id : String
  credit : Bool
  amount : Decimal
  before : Decimal
  after : Decimal
  deriving Repr

namespace ChainLink

/-- Where a link should end: its start moved by its amount in its direction. -/
def expected (l : ChainLink) : Decimal :=
  if l.credit then l.before + l.amount else l.before - l.amount

end ChainLink

/-- The chain view of a stored entry. -/
def LedgerEntry.link (e : LedgerEntry) : ChainLink :=
  ⟨e.id, e.type.isCredit, e.amount, e.before, e.after⟩

/-- The first link of a chain that does not hold. -/
inductive ChainBreak
  /-- The entry at `index` starts at `before`, not where the previous one ended. -/
  | startsElsewhere (index : Nat) (id : String) (before previous : Decimal)
  /-- The entry at `index` ends at `after`, not at `expected`. -/
  | endsElsewhere (index : Nat) (id : String) (after expected : Decimal)
  deriving Repr

/-- How a broken chain is reported. -/
def ChainBreak.message : ChainBreak → String
  | .startsElsewhere i id b p =>
    s!"entry {i} ({id}): balance before {b.render}, previous balance after {p.render}"
  | .endsElsewhere i id a e => s!"entry {i} ({id}): balance after {a.render}, expected {e.render}"

/-- The first break of the chain `ls`, whose first link is numbered `index` and must
start at `previous`. -/
def firstBreakFrom (previous : Decimal) (index : Nat) : List ChainLink → Option ChainBreak
  | [] => none
  | l :: ls =>
    if l.before ≠ previous then some (.startsElsewhere index l.id l.before previous)
    else if l.after ≠ l.expected then some (.endsElsewhere index l.id l.after l.expected)
    else firstBreakFrom l.after (index + 1) ls

/-- The first break of a wallet's chain, which starts from a zero balance. -/
def firstBreak (ls : List ChainLink) : Option ChainBreak := firstBreakFrom 0 0 ls

/-- The chain `ls` holds from the balance `previous` on. -/
def Linked : Decimal → List ChainLink → Prop
  | _, [] => True
  | previous, l :: ls => l.before = previous ∧ l.after = l.expected ∧ Linked l.after ls

theorem firstBreakFrom_eq_none_iff (previous : Decimal) (index : Nat) (ls : List ChainLink) :
    firstBreakFrom previous index ls = none ↔ Linked previous ls := by
  induction ls generalizing previous index with
  | nil => simp [firstBreakFrom, Linked]
  | cons l ls ih =>
    simp only [firstBreakFrom, Linked]
    by_cases hb : l.before = previous
    · by_cases ha : l.after = l.expected
      · simp [hb, ha, ih]
      · simp [hb, ha]
    · simp [hb]

end OnrampLedger
