import OnrampLedger.Proofs.StoreCalls
import OnrampLedger.Service.Transactions

/-!
# Disciplined transactions

What a transaction does depends on the answers it gets, and in a concurrent run those
come from a store that other commits keep changing. This module says which steps a
transaction can take against a store (`Tx.Moves`), and which transactions keep the
discipline the serializability argument needs (`Tx.Disciplined`):

* it reads a wallet's row, or its ledger, only under the wallet's lock, and flags only
  a wallet it locked;
* every reading it must not lose is guarded at its commit (`TxState.Covered`): a key it
  found free is a key it writes, so the commit's check fails if another transaction
  wrote it first; a payment row it found missing is a row it inserts; and a payment row
  it found and means to act on is a row it writes back on condition that its status is
  still the one read;
* it writes at most one payment row, a new one only under the id drawn for it, and
  writes a row back only as processed, copied from the row it read;
* the lookup of a pending purchase comes last, followed only by marking what it found
  completed and committing: it is the one read no check guards.

A step's answer depends only on what it read (`Call.result_of_holds`), so a
transaction's steps, each taken against the store of its moment, are steps against
any store that still shows everything the transaction read (`Tx.Reaches.moves`). And a
disciplined transaction whose steps are steps against `a` and whose commit passes on
`a` ends where it ends when run alone on `a`, or on any store that differs from `a` only
in on-ramp rows (`Tx.Disciplined.runAlone_of_moves`): the loose lookup of a pending
purchase changes nothing but the on-ramp it marks.

## Main results

* `Tx.Reaches.moves` — a transaction's history is a run against any store showing
  what it read.
* `Tx.Disciplined.reaches` — discipline is kept along every history.
* `Tx.Disciplined.runAlone_of_moves` — a committed disciplined run against `a` agrees
  with the lone run against any store like `a` but for on-ramp rows.
-/

namespace OnrampLedger

/-- Processed or dead-lettered: a payment row that processing leaves as it is. -/
def WebhookStatus.Settled (st : WebhookStatus) : Prop := st = .processed ∨ st = .deadLetter

/-- What a call may do in a disciplined transaction that has drawn `fresh` for a new
payment row and stands in state `t`. -/
def Call.Allowed (fresh : Option String) (t : TxState) : Call → Prop
  | .readRow id | .ledgerSums id | .latestAfter id => id ∈ t.held
  | .pendingOnRamp .. => False
  | .insertEvent row => fresh = some row.id ∧ ∀ w ∈ t.writes, w.touchesEvents = false
  | .stage (.updateEvent row st) =>
    row.status = .processed ∧ ¬ st.Settled ∧ (∀ w ∈ t.writes, w.touchesEvents = false) ∧
      ∃ x p, Reading.event x (some p) ∈ t.seen ∧ p.id = row.id ∧ p.externalId = row.externalId ∧
        p.status = st
  | .stage (.flag id ..) => id ∈ t.held
  | .stage (.updateOnRamp _) | .stage (.updateMissing ..) => True
  | .stage (.balance ..) | .stage (.entry _) | .stage (.insertEvent _)
  | .stage (.insertDeadLetter _) | .stage (.updateDeadLetter ..) => False
  | .cached _ | .present _ | .acquire _ | .entryByKey _ | .eventByExternal _ | .walletOfUser _
  | .post _ => True

/-- The commit guards the reading: a free key is written, a missing payment row is
inserted, and a payment row acted on is written back on condition of its status. -/
def Reading.CoveredBy (ws : List Write) : Reading → Prop
  | .key k none => ∃ e, Write.entry e ∈ ws ∧ e.key = k
  | .event x none => ∃ row, Write.insertEvent row ∈ ws ∧ row.externalId = x
  | .event _ (some p) => p.status.Settled ∨ ∃ row, Write.updateEvent row p.status ∈ ws ∧ row.id = p.id
  | _ => True

/-- A reading guarded by some writes is guarded by more. -/
theorem Reading.CoveredBy.mono {r : Reading} {ws ws' : List Write} (h : r.CoveredBy ws)
    (hsub : ws ⊆ ws') : r.CoveredBy ws' := by
  match r, h with
  | .key _ none, ⟨e, he, hk⟩ => exact ⟨e, hsub he, hk⟩
  | .event _ none, ⟨new, hnew, hx⟩ => exact ⟨new, hsub hnew, hx⟩
  | .event _ (some _), .inl hs => exact .inl hs
  | .event _ (some _), .inr ⟨back, hback, hid⟩ => exact .inr ⟨back, hsub hback, hid⟩
  | .present _, _ | .row _ _, _ | .key _ (some _), _ | .user _ _, _ | .sums _ _, _
  | .latest _ _, _ => trivial

/-- Every reading of the transaction is guarded by its commit. -/
def TxState.Covered (t : TxState) : Prop := ∀ r ∈ t.seen, r.CoveredBy t.writes

namespace Tx

/-- One step of a transaction against store `s`: a call answered as `s` answers it, a
call that fails, a wait for a lock ended by an error, or the lookup of a pending
purchase, answered with anything. -/
inductive Moves (s : Store) : Tx × TxState → Tx × TxState → Prop
  | answer {c : Call} {k : c.Answer → Tx} {t : TxState} {a : c.Answer} :
      c.readsOnRamps = false → c.result s t = some a → Moves s (.call c k, t) (k a, c.next t a)
  | fail {c : Call} {k : c.Answer → Tx} {t : TxState} :
      c.result s t = none → Moves s (.call c k, t) (.rollback, t)
  | cancel {w : String} {k : Unit → Tx} {t : TxState} :
      Moves s (.call (.acquire w) k, t) (.rollback, t)
  | loose {w p : String} {amount : Decimal} {k : Option OnRamp → Tx} {t : TxState}
      (o : Option OnRamp) : Moves s (.call (.pendingOnRamp w p amount) k, t) (k o, t)

/-- Steps, each against the store of its moment. -/
def Reaches : Tx × TxState → Tx × TxState → Prop :=
  Relation.ReflTransGen fun x y => ∃ s, Moves s x y

/-- A disciplined transaction, in state `t`, having drawn `fresh` for a new payment row:
every call is allowed, and the transaction stays disciplined on every answer some store
can give. -/
inductive Disciplined (fresh : Option String) : Tx → TxState → Prop
  | commit {t : TxState} : t.Covered → Disciplined fresh .commit t
  | rollback {t : TxState} : Disciplined fresh .rollback t
  | call {c : Call} {k : c.Answer → Tx} {t : TxState} :
      c.Allowed fresh t → (∀ s a, c.result s t = some a → Disciplined fresh (k a) (c.next t a)) →
        Disciplined fresh (.call c k) t
  | completeOnRamp {w p : String} {amount : Decimal} {now : Instant} {t : TxState} :
      t.Covered → Disciplined fresh (.call (.pendingOnRamp w p amount) (completeFound now)) t

end Tx

/-! ## Histories -/

theorem Call.seen_prefix_next (c : Call) (t : TxState) (a : c.Answer) :
    t.seen <+: (c.next t a).seen := by
  cases c <;> simp only [Call.next] <;> (try split) <;> simp

/-- Staging a write keeps every reading guarded. -/
theorem TxState.Covered.stage {t : TxState} (h : t.Covered) (w : Write) :
    ((Call.stage w).next t ()).Covered :=
  fun r hr => (h r hr).mono (List.subset_append_left _ _)

namespace Tx

variable {s : Store} {x y : Tx × TxState}

theorem Moves.seen_prefix (h : Moves s x y) : x.2.seen <+: y.2.seen := by
  cases h with
  | answer => exact Call.seen_prefix_next _ _ _
  | _ => exact List.prefix_refl _

theorem Reaches.seen_prefix (h : Reaches x y) : x.2.seen <+: y.2.seen := by
  induction h with
  | refl => exact List.prefix_refl _
  | tail _ hm ih => exact ih.trans (hm.elim fun _ h => h.seen_prefix)

theorem not_moves_commit (t : TxState) : ¬ Moves s (.commit, t) y := by
  intro h
  cases h

theorem not_moves_rollback (t : TxState) : ¬ Moves s (.rollback, t) y := by
  intro h
  cases h

theorem reaches_of_moves (h : Relation.ReflTransGen (Moves s) x y) : Reaches x y := by
  induction h with
  | refl => exact .refl
  | tail _ hm ih => exact ih.tail ⟨s, hm⟩

/-- A rolled back transaction goes nowhere. -/
theorem Reaches.of_rollback {t : TxState} (h : Reaches (.rollback, t) y) : y = (.rollback, t) := by
  induction h with
  | refl => rfl
  | tail _ hm ih =>
    subst ih
    obtain ⟨_, hm⟩ := hm
    exact absurd hm (not_moves_rollback t)

/-- A step taken against one store, ending anywhere but in a rollback, is a step
against every store that shows what the transaction has read. -/
theorem Moves.to_store {s₁ : Store} (h : Moves s₁ x y) (hy : y.1 ≠ .rollback)
    (hread : ∀ r ∈ y.2.seen, r.Holds s) : Moves s x y := by
  cases h with
  | answer hc hr => exact .answer hc (Call.result_of_holds hc hr hread)
  | fail => exact absurd rfl hy
  | cancel => exact absurd rfl hy
  | loose o => exact .loose o

/-- **A history is a run against any store that still shows what it read**: steps taken
against changing stores, ending anywhere but in a rollback, are steps against `s` once
`s` shows every reading. -/
theorem Reaches.moves (h : Reaches x y) (hy : y.1 ≠ .rollback) (hread : ∀ r ∈ y.2.seen, r.Holds s) :
    Relation.ReflTransGen (Moves s) x y := by
  induction h using Relation.ReflTransGen.head_induction_on with
  | refl => exact .refl
  | head hxz hzy ih =>
    rename_i z
    obtain ⟨_, hm⟩ := hxz
    -- the middle state is not a rollback either, or the history would have stopped there
    have hz : z.1 ≠ .rollback := by
      intro hz
      have hzy' : Reaches (.rollback, z.2) y := by rw [← hz]; exact hzy
      rw [hzy'.of_rollback] at hy
      exact hy rfl
    exact .head (hm.to_store hz fun r hr => hread r ((Reaches.seen_prefix hzy).subset hr)) ih

/-! ## Discipline along a history -/

variable {f : Option String}

/-- Marking the purchase found completed, then committing, keeps the discipline. -/
theorem disciplined_completeFound {t : TxState} (h : t.Covered) (now : Instant) (o : Option OnRamp) :
    Disciplined f (completeFound now o) t := by
  cases o with
  | some o => exact .call trivial fun _ _ _ => .commit (h.stage _)
  | none => exact .commit h

theorem Disciplined.moves (hd : Disciplined f x.1 x.2) (hm : Moves s x y) : Disciplined f y.1 y.2 := by
  cases hm with
  | answer hc hr =>
    cases hd with
    | call _ hk => exact hk _ _ hr
    | completeOnRamp => simp [Call.readsOnRamps] at hc
  | fail => exact .rollback
  | cancel => exact .rollback
  | loose o =>
    cases hd with
    | call hallowed _ => exact hallowed.elim
    | completeOnRamp hcov => exact disciplined_completeFound hcov _ o

theorem Disciplined.reaches (hd : Disciplined f x.1 x.2) (h : Reaches x y) : Disciplined f y.1 y.2 := by
  induction h with
  | refl => exact hd
  | tail _ hm ih => exact hm.elim fun _ h => ih.moves h

/-! ## Agreement with the lone run -/

/-- A commit with a purchase marked completed at the end passes when the rest passes
and the purchase exists, and then ends where the rest does, with the purchase written. -/
theorem commit?_append_updateOnRamp (s : Store) (ws : List Write) (o : OnRamp) :
    s.commit? (ws ++ [.updateOnRamp o]) =
      if (s.onRamp? o.id).isSome then (s.commit? ws).map (·.putOnRamp o) else none := by
  unfold Store.commit?
  by_cases ho : (s.onRamp? o.id).isSome <;> simp [ho, Write.check, Write.apply]

/-- A commit that passes, with or without a purchase marked completed at its end, on
a store like `a` but for on-ramp rows. -/
theorem commit?_completeFound {a b a' : Store} {t : TxState} (hab : a.SameButOnRamps b)
    (now : Instant) (o₁ : Option OnRamp) (o₂ : Option OnRamp)
    (ho₂ : ∀ o ∈ o₂, (b.onRamp? o.id).isSome)
    (ha : a.commit? (t.writes ++ (o₁.map fun o => .updateOnRamp { o with completedAt := some now }).toList) = some a') :
    ∃ b', b.commit? (t.writes ++ (o₂.map fun o => .updateOnRamp { o with completedAt := some now }).toList) = some b' ∧
      a'.SameButOnRamps b' := by
  -- the writes before the purchase pass on `a`, hence on `b`
  have hbase : ∃ a₀, a.commit? t.writes = some a₀ ∧ a'.SameButOnRamps a₀ := by
    cases o₁ with
    | none => exact ⟨a', by simpa using ha, .refl _⟩
    | some o =>
      simp only [Option.map_some, Option.toList_some] at ha
      rw [commit?_append_updateOnRamp] at ha
      split at ha
      · obtain ⟨a₀, ha₀, rfl⟩ := Option.map_eq_some_iff.mp ha
        exact ⟨a₀, ha₀, Store.SameButOnRamps.putOnRamp _ (.refl _)⟩
      · cases ha
  obtain ⟨a₀, ha₀, ha'⟩ := hbase
  obtain ⟨b₀, hb₀, hab₀⟩ := hab.commit? ha₀
  cases o₂ with
  | none => exact ⟨b₀, by simpa using hb₀, ha'.trans hab₀⟩
  | some o =>
    refine ⟨b₀.putOnRamp { o with completedAt := some now }, ?_, ?_⟩
    · simp only [Option.map_some, Option.toList_some]
      rw [commit?_append_updateOnRamp, if_pos (ho₂ o rfl), hb₀]
      rfl
    · exact (ha'.trans hab₀).trans (Store.SameButOnRamps.putOnRamp _ (.refl _)).symm

/-- A purchase the store finds exists. -/
theorem onRamp?_isSome_of_pending (s : Store) (w p : String) (amount : Decimal) :
    ∀ o ∈ s.pendingOnRamp? w p amount, (s.onRamp? o.id).isSome := by
  intro o ho
  have hmem : o ∈ s.onRamps := List.mem_of_find?_eq_some ho
  simpa [Store.onRamp?, List.find?_isSome] using ⟨o, hmem, rfl⟩

/-- The completion of a purchase found by a loose lookup, run on to its commit, stages
that purchase marked completed, or nothing when none was found. -/
theorem completeFound_writes {a : Store} {now : Instant} {o₁ : Option OnRamp} {t t' : TxState}
    (h : Relation.ReflTransGen (Moves a) (completeFound now o₁, t) (.commit, t')) :
    t'.writes = t.writes ++
      (o₁.map fun o => .updateOnRamp { o with completedAt := some now }).toList := by
  cases o₁ with
  | none =>
    rcases Relation.ReflTransGen.cases_head h with heq | ⟨_, hm, _⟩
    · cases heq
      simp
    · exact absurd hm (not_moves_commit _)
  | some o =>
    rcases Relation.ReflTransGen.cases_head h with heq | ⟨_, hm, hrest⟩
    · cases heq
    · cases hm with
      | answer =>
        rcases Relation.ReflTransGen.cases_head hrest with heq | ⟨_, hm', _⟩
        · cases heq
          simp [Call.next]
        · exact absurd hm' (not_moves_commit _)
      | fail hr => simp [Call.result] at hr

/-- **A committed disciplined run agrees with the lone run**: a disciplined transaction
whose steps from `(tx, t)` are steps against `a`, ending in a commit that passes on `a`,
leaves `a` as the same transaction run alone leaves any store `b` that differs from `a`
only in on-ramp rows, up to on-ramp rows. -/
theorem Disciplined.runAlone_of_moves {tx : Tx} {t t' : TxState} {a b a' : Store}
    (hd : Disciplined f tx t) (hpath : Relation.ReflTransGen (Moves a) (tx, t) (.commit, t'))
    (hcommit : a.commit? t'.writes = some a') (hab : a.SameButOnRamps b) :
    a'.SameButOnRamps (tx.runAlone b t) := by
  induction hd generalizing a' with
  | commit _ =>
    -- a commit takes no step: the history is empty
    rcases Relation.ReflTransGen.cases_head hpath with heq | ⟨_, hm, _⟩
    · cases heq
      obtain ⟨b', hb', hab'⟩ := hab.commit? hcommit
      simp [runAlone, hb', hab']
    · exact absurd hm (not_moves_commit _)
  | rollback =>
    rcases Relation.ReflTransGen.cases_head hpath with heq | ⟨_, hm, _⟩
    · cases heq
    · exact absurd hm (not_moves_rollback _)
  | @call c k t hallowed _ ih =>
    rcases Relation.ReflTransGen.cases_head hpath with heq | ⟨z, hm, hrest⟩
    · cases heq
    · cases hm with
      | answer hc hr =>
        simp only [runAlone, ← Call.result_of_same hab hc, hr]
        exact ih _ _ hr hrest hcommit
      | fail => exact absurd (reaches_of_moves hrest).of_rollback (fun h => by cases h)
      | cancel => exact absurd (reaches_of_moves hrest).of_rollback (fun h => by cases h)
      | loose => exact hallowed.elim
  | @completeOnRamp w p amount now t hcov =>
    rcases Relation.ReflTransGen.cases_head hpath with heq | ⟨z, hm, hrest⟩
    · cases heq
    · cases hm with
      | answer hc => simp [Call.readsOnRamps] at hc
      | fail hr => simp [Call.result] at hr
      | loose o₁ =>
        -- after the loose lookup: at most the purchase's write, then the commit
        rw [completeFound_writes hrest] at hcommit
        obtain ⟨b', hb', hab'⟩ := commit?_completeFound hab now o₁ (b.pendingOnRamp? w p amount)
          (onRamp?_isSome_of_pending b w p amount) hcommit
        cases ho₂ : b.pendingOnRamp? w p amount with
        | none =>
          rw [ho₂] at hb'
          simp only [Option.map_none, Option.toList_none, List.append_nil] at hb'
          simp only [runAlone, Call.result, ho₂, completeFound, Call.next, hb', Option.getD_some]
          exact hab'
        | some o =>
          rw [ho₂] at hb'
          simp only [Option.map_some, Option.toList_some] at hb'
          simp only [runAlone, Call.result, ho₂, completeFound, Call.next, hb', Option.getD_some]
          exact hab'

end Tx

end OnrampLedger
