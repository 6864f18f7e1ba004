import OnrampLedger.Ledger.Error

/-!
# Amounts

Money moves in positive amounts of whole cents. `normalizeAmount` admits exactly those:
an amount that is not above zero is refused, and so is one that rounding to cents
would change.
-/

namespace OnrampLedger

/-- The amount rounded to cents, if it is above zero and rounding keeps its value. -/
def normalizeAmount (a : Decimal) : Except Error Decimal :=
  if ¬ a.IsPositive then .error .amountNotPositive
  else
    let rounded := a.roundTo 2
    if rounded = a then .ok rounded
    else .error (.amountTooPrecise a)

end OnrampLedger
