import OnrampLedger.Store.Basic
import OnrampLedger.Text.Numeral

/-!
# References to records

Steps of a scenario cannot know the ids the service will draw, so they name records
by references that are looked up in the store when the step runs:

* `$w:USER`, the wallet of a user;
* `$dl:i`, `$mw:i`, `$al:i`, `$or:i`, the `i`-th dead letter, missing-webhook case,
  alert or purchase, oldest first, counting from the end when `i` is negative;
* `$we:EXT`, the provider report with provider id `EXT`.

A reference that names nothing stands for itself. Inside longer text a reference is
written in braces, `{$kind:arg}`, and is replaced by what it names, or by itself
without the braces.
-/

namespace OnrampLedger

namespace Reference

/-- The `i`-th element, counting from the end when `i` is negative. -/
def pick {α : Type} (xs : List α) (i : Int) : Option α :=
  if i < 0 then
    if xs.length + i < 0 then none else xs[(xs.length + i).toNat]?
  else xs[i.toNat]?

/-- The id a reference of kind `kind` with argument `arg` names, if any. -/
def lookup (s : Store) (kind arg : String) : Option String :=
  let nth {α : Type} (xs : List α) (id : α → String) : Option String :=
    (Numeral.toInt? arg).bind fun i => (pick xs i).map id
  match kind with
  | "w" => (s.walletOfUser? arg).map (·.id)
  | "dl" => nth s.deadLetters (·.id)
  | "mw" => nth s.missing (·.id)
  | "al" => nth s.alerts (·.id)
  | "or" => nth s.onRamps (·.id)
  | "we" => (s.webhookByExternal? arg).map (·.id)
  | _ => none

/-- What a text names: the id a reference names, else the text itself. -/
def resolve (s : Store) (text : String) : String :=
  match text.toList with
  | '$' :: rest =>
    if rest.contains ':' then
      let kind := String.ofList (rest.takeWhile (· ≠ ':'))
      let arg := String.ofList ((rest.dropWhile (· ≠ ':')).drop 1)
      (lookup s kind arg).getD text
    else text
  | _ => text

/-- The kind and argument of a braced reference whose `{$` has been read, and how many
characters it takes up to and with its closing brace. -/
def braced (cs : List Char) : Option (String × String × Nat) :=
  let kind := cs.takeWhile Char.isAlpha
  match cs.drop kind.length with
  | ':' :: rest =>
    let arg := rest.takeWhile (· ≠ '}')
    if kind.isEmpty || arg.length = rest.length then none
    else some (String.ofList kind, String.ofList arg, kind.length + arg.length + 2)
  | _ => none

/-- Text with every braced reference replaced by what it names. -/
def fill (s : Store) (cs : List Char) : List Char :=
  match cs with
  | '{' :: '$' :: rest =>
    match braced rest with
    | some (kind, arg, n) => (resolve s ("$" ++ kind ++ ":" ++ arg)).toList ++ fill s (rest.drop n)
    | none => '{' :: fill s ('$' :: rest)
  | c :: rest => c :: fill s rest
  | [] => []
termination_by cs.length
decreasing_by
  all_goals simp only [List.length_cons, List.length_drop]
  all_goals omega

/-- Text with every braced reference replaced by what it names. -/
def fillText (s : Store) (text : String) : String := String.ofList (fill s text.toList)

end Reference

end OnrampLedger
