import OnrampLedger.Proofs.Keys

/-!
# Ids drawn once

Every row the service adds takes an id drawn from the world's counter (`Op.freshId`): the
text of the next number (`idText`). While fewer than `2 ^ 48` ids have been drawn, texts
of different numbers differ (`idText_injective`), so a table whose ids were all drawn,
each once, keeps distinct ids as rows are added under ids drawn later and written back
under their own.

Rows are written back by id (`replaceFirst`), so distinct ids are what makes a write-back
touch the one row it names. The payment rows and the dead letters keep distinct ids in
every run of commands that draws fewer than `2 ^ 48` ids.

## Main results

* `Drawn.snoc`, `Drawn.append_idsFrom` — a table keeps distinct drawn ids as rows are
  added under ids drawn after its own.
* `World.Fresh.step` — one command keeps the ids of the payment rows and of the dead
  letters drawn and distinct.
* `Command.fresh_runAll` — so does every run that draws fewer than `2 ^ 48` ids.
-/

namespace OnrampLedger

/-- The ids of a table, each drawn among the first `n` and no two alike. -/
structure Drawn (n : Nat) (ids : List String) : Prop where
  nodup : ids.Nodup
  drawn : ∀ x ∈ ids, ∃ k ≤ n, x = idText k

namespace Drawn

variable {n n' : Nat} {ids : List String}

theorem nil (n : Nat) : Drawn n [] := ⟨List.nodup_nil, by simp⟩

theorem mono (h : Drawn n ids) (hn : n ≤ n') : Drawn n' ids := by
  refine ⟨h.nodup, fun x hx => ?_⟩
  obtain ⟨k, hk, rfl⟩ := h.drawn x hx
  exact ⟨k, hk.trans hn, rfl⟩

/-- An id drawn after all of a table's, below `2 ^ 48`, is none of them. -/
theorem not_mem (h : Drawn n ids) {k : Nat} (hk : n < k) (hbound : k < 2 ^ 48) :
    idText k ∉ ids := by
  intro hmem
  obtain ⟨j, hj, hx⟩ := h.drawn _ hmem
  have hkj : k = j := idText_injective hbound (by omega) hx
  omega

/-- A row added under an id drawn after the table's keeps its ids drawn and distinct. -/
theorem snoc (h : Drawn n ids) {k : Nat} (hk : n < k) (hbound : k < 2 ^ 48) :
    Drawn k (ids ++ [idText k]) := by
  refine ⟨List.nodup_append.mpr ⟨h.nodup, List.nodup_singleton _, ?_⟩, fun x hx => ?_⟩
  · intro a ha b hb hab
    rw [List.mem_singleton.mp hb] at hab
    exact h.not_mem hk hbound (hab ▸ ha)
  · rcases List.mem_append.mp hx with hx | hx
    · obtain ⟨j, hj, rfl⟩ := h.drawn x hx
      exact ⟨j, by omega, rfl⟩
    · exact ⟨k, le_rfl, List.mem_singleton.mp hx⟩

/-- So do rows added under the `m` ids drawn next, in order. -/
theorem append_idsFrom (h : Drawn n ids) {m : Nat} (hbound : n + m < 2 ^ 48) :
    Drawn (n + m) (ids ++ Retry.idsFrom n m) := by
  induction m with
  | zero => simpa [Retry.idsFrom] using h
  | succ m ih =>
    rw [Retry.idsFrom_succ, ← List.append_assoc]
    exact (ih (by omega)).snoc (by omega) hbound

/-- A payment's row written over its earlier row, or added under an id drawn after the
table's, keeps the table's ids drawn and distinct. -/
theorem webhooksWith {s : Store} {prior : Option WebhookEvent} {row : WebhookEvent} {k : Nat}
    (h : Drawn n (s.webhooks.map (·.id))) (hid : row.id = (prior.map (·.id)).getD (idText k))
    (hnew : prior = none → n < k ∧ k ≤ n') (hn : n ≤ n') (hbound : n' < 2 ^ 48) :
    Drawn n' ((s.webhooksWith prior row).map (·.id)) := by
  cases prior with
  | none =>
    obtain ⟨hk, hk'⟩ := hnew rfl
    simp only [Option.map_none, Option.getD_none] at hid
    simp only [Store.webhooksWith, List.map_append, List.map_singleton, hid]
    exact (h.snoc hk (by omega)).mono hk'
  | some p =>
    simp only [Store.webhooksWith]
    rw [map_key_replaceFirst]
    exact h.mono hn

end Drawn

/-- A row written back under the id `k` it has keeps a table's ids drawn and distinct. -/
theorem Drawn.replaceFirst {n : Nat} {α : Type} {key : α → String} {k : String} {x : α}
    {l : List α} (h : Drawn n (l.map key)) (hx : key x = k) :
    Drawn n ((OnrampLedger.replaceFirst (fun z => key z == k) x l).map key) := by
  subst hx
  rwa [map_key_replaceFirst]

/-- Attempting rows once more keeps the ids of the table. -/
theorem Retry.attemptAll_ids (max : Int) (now : Instant) (es rows : List WebhookEvent) :
    (attemptAll max now es rows).map (·.id) = rows.map (·.id) := by
  induction es generalizing rows with
  | nil => rfl
  | cons e es ih =>
    have hstep : (replaceFirst (·.id == e.id) (attempt max now e) rows).map (·.id) =
        rows.map (·.id) := by
      have h : (replaceFirst (fun z => z.id == (attempt max now e).id) (attempt max now e)
          rows).map (·.id) = rows.map (·.id) := map_key_replaceFirst
      rwa [attempt_id] at h
    exact (ih _).trans hstep

/-- The payment rows and the dead letters of a world have distinct ids, all drawn. -/
structure World.Fresh (W : World) : Prop where
  webhooks : Drawn W.issued (W.store.webhooks.map (·.id))
  deadLetters : Drawn W.issued (W.store.deadLetters.map (·.id))

theorem World.fresh_empty (w : World) : World.Fresh { w with store := Store.empty } :=
  ⟨Drawn.nil _, Drawn.nil _⟩

/-- **One command keeps ids drawn once**: the rows it adds take ids drawn during the
command, and the rows it writes back keep theirs. -/
theorem World.Fresh.step {c : Command} {W W' : World} (h : W.Fresh) (hs : c.Step W W')
    (hbound : W'.issued < 2 ^ 48) : W'.Fresh := by
  obtain ⟨heffect, -, hle⟩ := hs
  have same (hw : W'.store.webhooks = W.store.webhooks)
      (hd : W'.store.deadLetters = W.store.deadLetters) : W'.Fresh := by
    exact ⟨by rw [hw]; exact h.webhooks.mono hle, by rw [hd]; exact h.deadLetters.mono hle⟩
  cases c
  case createWallet =>
    rcases heffect with hk | ⟨_, hopened⟩
    exacts [same hk.webhooks hk.deadLetters, same hopened.webhooks hopened.deadLetters]
  case credit | manualCredit =>
    rcases heffect with hk | ⟨_, _, -, hp, -⟩
    exacts [same hk.webhooks hk.deadLetters, same hp.webhooks hp.deadLetters]
  case debit =>
    rcases heffect with hk | ⟨_, _, -, -, hp, -⟩
    exacts [same hk.webhooks hk.deadLetters, same hp.webhooks hp.deadLetters]
  case transfer =>
    rcases heffect with hk | ⟨_, _, _, _, _, -, -, -, -, -, hout, hin, -⟩
    exacts [same hk.webhooks hk.deadLetters, same (hin.webhooks.trans hout.webhooks)
      (hin.deadLetters.trans hout.deadLetters)]
  case replayMissing =>
    rcases heffect with hk | ⟨_, _, -, _, _, -, hp, -⟩
    exacts [same hk.webhooks hk.deadLetters, same hp.webhooks hp.deadLetters]
  -- a payment's row: settled, or its failure recorded, over its earlier row or as a new one
  case process ev _ =>
    rcases heffect with hk | ⟨-, -, -, -, -, ⟨_, hsettled⟩ | ⟨k, _, hik, hnew, hrecorded⟩⟩
    · exact same hk.webhooks hk.deadLetters
    · obtain ⟨_, -, _, _, -, -, -, hd, k, row, hik, hki, hrow, hh⟩ := hsettled
      refine ⟨?_, by rw [hd]; exact h.deadLetters.mono hle⟩
      rw [hh]
      exact h.webhooks.webhooksWith hrow.id (fun _ => ⟨hik, hki⟩) hle hbound
    · obtain ⟨row, -, -, -, -, hid, hS⟩ := hrecorded
      have hrows : W'.store.webhooks = W.store.webhooksWith (W.store.webhookByExternal? ev.externalId) row ∧
          W'.store.deadLetters = W.store.deadLetters := by
        rcases hS with hS | ⟨_, -, hS⟩ <;> rw [hS] <;> exact ⟨rfl, rfl⟩
      refine ⟨?_, by rw [hrows.2]; exact h.deadLetters.mono hle⟩
      rw [hrows.1]
      exact h.webhooks.webhooksWith hid (fun hnone => ⟨hik, hnew hnone⟩) hle hbound
  -- a cycle attempts rows under their ids and adds dead letters under the ids it draws
  case retryCycle =>
    obtain ⟨-, -, added, hstore, -, hissued, hids⟩ := heffect
    refine ⟨?_, ?_⟩
    · rw [hstore, Retry.attemptAll_ids]
      exact h.webhooks.mono hle
    · rw [hstore, List.map_append, hids, hissued]
      exact h.deadLetters.append_idsFrom (hissued ▸ hbound)
  -- operators write a payment row and a dead letter back under their own ids
  case retryDeadLetter =>
    rcases heffect with rfl | ⟨_, _, -, -, -, -, rfl⟩
    exacts [h, ⟨h.webhooks.replaceFirst rfl, h.deadLetters.replaceFirst rfl⟩]
  case resolveDeadLetter =>
    rcases heffect with rfl | ⟨_, _, -, -, rfl⟩
    exacts [h, ⟨h.webhooks, h.deadLetters.replaceFirst rfl⟩]
  case archiveDeadLetter =>
    rcases heffect with rfl | ⟨_, -, -, rfl⟩
    exacts [h, ⟨h.webhooks, h.deadLetters.replaceFirst rfl⟩]
  all_goals exact same heffect.webhooks heffect.deadLetters

namespace Command

/-- A run draws ids only forward. -/
theorem issued_le_runAll (cs : List Command) (W : World) : W.issued ≤ (runAll cs W).issued := by
  induction cs generalizing W with
  | nil => exact le_rfl
  | cons c cs ih => exact (run_step c W).2.2.trans (ih _)

/-- **Ids drawn once**: a run that draws fewer than `2 ^ 48` ids, from a world whose
payment rows and dead letters have distinct drawn ids, keeps them so. -/
theorem fresh_runAll {cs : List Command} {W : World} (h : W.Fresh)
    (hbound : (runAll cs W).issued < 2 ^ 48) : (runAll cs W).Fresh := by
  induction cs generalizing W with
  | nil => exact h
  | cons c cs ih =>
    rw [runAll_cons] at hbound ⊢
    have hc : (c.run W).issued < 2 ^ 48 := lt_of_le_of_lt (issued_le_runAll cs _) hbound
    exact ih (h.step (run_step c W) hc) hbound

/-- A world reached by the first commands of a run has drawn no more ids than the run. -/
theorem issued_take_le (cs : List Command) (i : Nat) (W : World) :
    (runAll (cs.take i) W).issued ≤ (runAll cs W).issued := by
  conv_rhs => rw [← List.take_append_drop i cs, runAll_append]
  exact issued_le_runAll _ _

/-- **Invariants of runs that draw ids once**: a property that each allowed command keeps
from a world whose ids are drawn once, when the command draws fewer than `2 ^ 48` ids in
all, holds after every run of allowed commands. -/
theorem runAll_fresh_invariant {P : World → Prop} {allowed : Command → Prop}
    (hstep : ∀ c, allowed c → ∀ W, W.Fresh → P W → (c.run W).issued < 2 ^ 48 → P (c.run W))
    {cs : List Command} (hcs : ∀ c ∈ cs, allowed c) {W : World} (hf : W.Fresh) (hP : P W)
    (hbound : (runAll cs W).issued < 2 ^ 48) : P (runAll cs W) := by
  induction cs generalizing W with
  | nil => exact hP
  | cons c cs ih =>
    rw [runAll_cons] at hbound ⊢
    have hc : (c.run W).issued < 2 ^ 48 := lt_of_le_of_lt (issued_le_runAll cs _) hbound
    exact ih (fun d hd => hcs d (List.mem_cons_of_mem c hd)) (hf.step (run_step c W) hc)
      (hstep c (hcs c List.mem_cons_self) W hf hP hc) hbound

end Command

end OnrampLedger
