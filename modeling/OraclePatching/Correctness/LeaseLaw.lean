import OraclePatching.Controller.Accepted
import OraclePatching.Controller.Replay

/-!
# `Correctness.LeaseLaw` — the lease that `claim` and `renew` grant

Both commands check the lease as a decimal between 30 and 3600 and then add it in `$((now+lease))`, where digits
behind a leading zero are octal. The octal value is smaller than the decimal one as soon as that is 8 or more
(`octal_lt`), so a padded lease is granted short, unless the end of the window cuts both values to the same expiry.
Everything else the law says holds of every accepted call: the window end bounds the expiry, 30 seconds remain, and a
lease that has expired is not renewed (`lease_bounds`).
-/

namespace OraclePatching

/-! ## Octal and decimal -/

/-- A smaller start stays smaller. -/
theorem octal_lt_of_lt {ds : List Char} {a b : Nat} (h : a < b) :
    Nat.ofDigitChars 8 ds a < Decimal.value ds b := by
  induction ds generalizing a b with
  | nil => exact h
  | cons d ds ih =>
      show Nat.ofDigitChars 8 ds (8 * a + _) < Nat.ofDigitChars 10 ds (10 * b + _)
      exact ih (by omega)

/-- **The octal value is smaller**, except below 8. -/
theorem octal_lt {ds : List Char} (h : ds.all (fun c => c.isDigit && decide (c < '8')) = true) :
    Nat.ofDigitChars 8 ds 0 < Decimal.value ds 0 ∨ Decimal.value ds 0 < 8 := by
  induction ds with
  | nil => exact .inr (by decide)
  | cons d ds ih =>
      rw [List.all_cons, Bool.and_eq_true, Bool.and_eq_true, decide_eq_true_eq] at h
      obtain ⟨⟨-, hd⟩, hds⟩ := h
      have hd8 : d.toNat - '0'.toNat < 8 := by
        have hlt : d.toNat < '8'.toNat := hd
        have h8 : '8'.toNat = 56 := rfl
        have h0 : '0'.toNat = 48 := rfl
        omega
      show Nat.ofDigitChars 8 ds (8 * 0 + (d.toNat - '0'.toNat)) <
          Nat.ofDigitChars 10 ds (10 * 0 + (d.toNat - '0'.toNat)) ∨
        Nat.ofDigitChars 10 ds (10 * 0 + (d.toNat - '0'.toNat)) < 8
      rw [Nat.mul_zero, Nat.zero_add]
      by_cases hzero : d.toNat - '0'.toNat = 0
      · rw [hzero]
        exact ih hds
      · -- the first digit that counts: a second one tells the bases apart
        cases ds with
        | nil => exact .inr hd8
        | cons e es =>
            refine .inl ?_
            show Nat.ofDigitChars 8 es (8 * (d.toNat - '0'.toNat) + _) <
              Nat.ofDigitChars 10 es (10 * (d.toNat - '0'.toNat) + _)
            exact octal_lt_of_lt (by omega)

/-- Without a leading zero the shell reads the decimal value. -/
theorem arithmeticValue_plain {lease : String} {seconds : Nat} (h : leaseSeconds lease = some seconds)
    (hplain : lease.toList.head? ≠ some '0') : arithmeticValue lease = some seconds := by
  unfold leaseSeconds at h
  split at h
  · rw [← h]
    unfold arithmeticValue
    split
    · rename_i heq
      rw [heq] at hplain
      exact absurd rfl hplain
    · rfl
  · exact absurd h (by simp)

/-- Behind a leading zero it reads less, if it reads anything. -/
theorem arithmeticValue_padded {lease : String} {seconds value : Nat} (h : leaseSeconds lease = some seconds)
    (hpadded : lease.toList.head? = some '0') (hvalue : arithmeticValue lease = some value) :
    value < seconds ∨ seconds < 8 := by
  unfold leaseSeconds at h
  split at h
  · rw [← Option.some.inj h]
    unfold arithmeticValue at hvalue
    split at hvalue
    · rename_i ds heq
      split at hvalue
      · rename_i hds
        rw [← Option.some.inj hvalue, heq]
        show Nat.ofDigitChars 8 ds 0 < Nat.ofDigitChars 10 ds (10 * 0 + 0) ∨ Nat.ofDigitChars 10 ds (10 * 0 + 0) < 8
        exact octal_lt hds
      · exact absurd hvalue (by simp)
    · rename_i hne
      cases hlist : lease.toList with
      | nil => rw [hlist] at hpadded; exact absurd hpadded (by simp)
      | cons d ds =>
          rw [hlist] at hpadded
          exact absurd (hlist.trans (by rw [Option.some.inj hpadded])) (hne ds)
  · exact absurd h (by simp)

/-! ## The law -/

/-- The two commands that grant a lease. -/
inductive LeaseCall where
  | claim
  | renew
  deriving DecidableEq, Repr

section
variable (cfg : Config) (w : World) (s : Store)

def LeaseCall.run (call : LeaseCall) (id taskId actor lease : String) : Ctl Script :=
  match call with
  | .claim => OraclePatching.claim cfg w s id taskId actor lease
  | .renew => OraclePatching.renew cfg w s id taskId actor lease

/-- An accepted call writes the task with this lease expiry, for a window that closes at `closes`; `old` is the task
    before. -/
structure LeaseGrant (id taskId : String) (sc : Script) (old : Task) (expiry closes : Int) : Prop where
  window : ∃ d, s.plans.lookup id = some d ∧ d.task? taskId = some old ∧ cfg.epoch d.plan.windowEnd = some closes
  written : ∃ new rest, sc.writes = .task new :: rest ∧ new.taskId = taskId ∧ new.leaseExpiresEpoch = some expiry

/-- **The lease law** of a granted lease. `bounded_lease_expiry` reads the clock for the fourth time; the second reading
    is the one a renewal checks the old lease against. -/
structure LeaseLaw (call : LeaseCall) (lease : String) (old : Task) (expiry closes : Int) : Prop where
  exact : ∃ seconds, leaseSeconds lease = some seconds ∧ expiry = min (w.clock 3 + seconds) closes
  atLeast : w.clock 3 + 30 ≤ expiry
  bounded : expiry ≤ closes
  unexpired : call = .renew → w.clock 1 < old.leaseExpiresEpoch.getD 0

/-- The window closes before even the octal lease ends. -/
def Clipped (lease : String) (closes : Int) : Prop :=
  ∃ value : Nat, arithmeticValue lease = some value ∧ closes ≤ w.clock 3 + value

end

section
variable {cfg : Config} {w : World} {s : Store} {call : LeaseCall} {id taskId actor lease : String} {sc : Script}

/-- What an accepted call granted. -/
theorem LeaseCall.granted (h : call.run cfg w s id taskId actor lease = .ok sc) :
    ∃ old expiry closes seconds value, LeaseGrant cfg s id taskId sc old expiry closes ∧
      leaseSeconds lease = some seconds ∧ 30 ≤ seconds ∧ arithmeticValue lease = some value ∧
      expiry = min (w.clock 3 + value) closes ∧ w.clock 3 + 30 ≤ expiry ∧
      (call = .renew → w.clock 1 < old.leaseExpiresEpoch.getD 0) := by
  -- both calls check the bounds before they take the lock
  have hallowed : leaseAllowed lease := by
    cases call with
    | claim =>
        simp only [LeaseCall.run, OraclePatching.claim, check_bind_ok] at h
        exact ensure_ok.mp h.2.2.2.1
    | renew =>
        simp only [LeaseCall.run, OraclePatching.renew, check_bind_ok] at h
        exact ensure_ok.mp h.2.2.2.1
  -- the bounds are on the decimal reading, the expiry on the arithmetic one
  obtain ⟨seconds, hseconds, hleast⟩ : ∃ seconds, leaseSeconds lease = some seconds ∧ 30 ≤ seconds := by
    unfold leaseAllowed at hallowed
    cases hvalue : leaseSeconds lease with
    | none => rw [hvalue] at hallowed; exact absurd hallowed (by simp)
    | some seconds =>
        rw [hvalue] at hallowed
        simp only [Option.any_some, Bool.and_eq_true, decide_eq_true_eq] at hallowed
        exact ⟨seconds, rfl, hallowed.1⟩
  cases call with
  | claim =>
      obtain ⟨d, old, expiry, hacc⟩ := claim_ok h
      obtain ⟨closes, value, hwindow, hvalue, hexpiry, hremain⟩ := boundedLeaseExpiry_ok.mp hacc.lease
      have hleast' : w.clock 3 + 30 ≤ expiry := by
        have hthird : w.clock (2 + 1) = w.clock 3 := rfl
        omega
      refine ⟨old, expiry, closes, seconds, value, ⟨⟨d, (verifyPlan_ok.mp hacc.plan).1, hacc.task,
        (requireOpenWindow_ok.mp hwindow).1⟩, ?_⟩, hseconds, hleast, hvalue, hexpiry, hleast', fun hno => absurd hno (by simp)⟩
      rw [hacc.script]
      exact ⟨_, _, rfl, (Frontier.lookup_mem hacc.task).2, rfl⟩
  | renew =>
      obtain ⟨d, old, expiry, hacc⟩ := renew_ok h
      obtain ⟨closes, value, hwindow, hvalue, hexpiry, hremain⟩ := boundedLeaseExpiry_ok.mp hacc.lease
      have hleast' : w.clock 3 + 30 ≤ expiry := by
        have hthird : w.clock (2 + 1) = w.clock 3 := rfl
        omega
      refine ⟨old, expiry, closes, seconds, value, ⟨⟨d, (verifyPlan_ok.mp hacc.plan).1, hacc.task,
        (requireOpenWindow_ok.mp hwindow).1⟩, ?_⟩, hseconds, hleast, hvalue, hexpiry, hleast', fun _ => hacc.unexpired⟩
      rw [hacc.script]
      exact ⟨_, _, rfl, (Frontier.lookup_mem hacc.task).2, rfl⟩

/-- **What every accepted call keeps to**, padded lease or not: the expiry lies at least 30 seconds ahead and not behind
    the end of the window, and an expired lease is not renewed. -/
theorem lease_bounds (h : call.run cfg w s id taskId actor lease = .ok sc) :
    ∃ old expiry closes, LeaseGrant cfg s id taskId sc old expiry closes ∧ w.clock 3 + 30 ≤ expiry ∧
      expiry ≤ closes ∧ (call = .renew → w.clock 1 < old.leaseExpiresEpoch.getD 0) := by
  obtain ⟨old, expiry, closes, seconds, value, hgrant, -, -, -, hexpiry, hleast, hold⟩ := LeaseCall.granted h
  exact ⟨old, expiry, closes, hgrant, hleast, by omega, hold⟩

end

/-- **The lease law.** Whatever `claim` or `renew` is called with and whatever the clock says, the lease that an accepted
    call grants is the lease that the law asks for exactly if the text has no leading zero, or the window closes before
    even the octal lease ends. -/
theorem lease_law {cfg : Config} {w : World} {s : Store} {call : LeaseCall} {id taskId actor lease : String} {sc : Script}
    (h : call.run cfg w s id taskId actor lease = .ok sc) :
    ∃ old expiry closes, LeaseGrant cfg s id taskId sc old expiry closes ∧
      (LeaseLaw w call lease old expiry closes ↔ lease.toList.head? ≠ some '0' ∨ Clipped w lease closes) := by
  obtain ⟨old, expiry, closes, seconds, value, hgrant, hseconds, h30, hvalue, hexpiry, hleast, hold⟩ :=
    LeaseCall.granted h
  refine ⟨old, expiry, closes, hgrant, fun hlaw => ?_, fun hcondition => ⟨?_, hleast, by omega, hold⟩⟩
  · by_cases hpadded : lease.toList.head? = some '0'
    · obtain ⟨seconds', hseconds', hexact⟩ := hlaw.exact
      obtain rfl : seconds = seconds' := Option.some.inj (hseconds.symm.trans hseconds')
      have hlt := arithmeticValue_padded hseconds hpadded hvalue
      -- the two minima agree only at the window's end
      exact .inr ⟨value, hvalue, by omega⟩
    · exact .inl hpadded
  · refine ⟨seconds, hseconds, ?_⟩
    rcases hcondition with hplain | ⟨value', hvalue', hclipped⟩
    · obtain rfl : value = seconds := Option.some.inj (hvalue.symm.trans (arithmeticValue_plain hseconds hplain))
      exact hexpiry
    · obtain rfl : value = value' := Option.some.inj (hvalue.symm.trans hvalue')
      by_cases hpadded : lease.toList.head? = some '0'
      · have hlt := arithmeticValue_padded hseconds hpadded hvalue
        omega
      · obtain rfl : value = seconds := Option.some.inj (hvalue.symm.trans (arithmeticValue_plain hseconds hpadded))
        exact hexpiry

/-- The first claim of the dispatched plan `p1`, an hour after its window opened. -/
def labLease (lease : String) : Ctl Script :=
  LeaseCall.claim.run lab (labWorld []) (replay lab labDispatched) "p1" (labTask 1).1 "dee" lease

/-- The expiry in the task file that a script writes first. -/
def Script.leaseExpiry (sc : Script) : Option Int :=
  match sc.writes with
  | .task t :: _ => t.leaseExpiresEpoch
  | _ => none

theorem labLease_granted : ["600", "0100"].map (fun lease => (labLease lease).toOption.bind Script.leaseExpiry) =
      [some 1768007400, some 1768006864] ∧
    ((replay lab labDispatched).plans.lookup "p1").map (fun d => lab.epoch d.plan.windowEnd) =
      some (some 1768024800) := by
  decide +kernel

theorem lease_law_plain : ∃ sc, labLease "600" = .ok sc ∧
    ∃ old expiry closes, LeaseGrant lab (replay lab labDispatched) "p1" (labTask 1).1 sc old expiry closes ∧
      LeaseLaw (labWorld []) .claim "600" old expiry closes := by
  obtain ⟨hleases, -⟩ := labLease_granted
  cases hrun : labLease "600" with
  | error e => rw [List.map_cons, hrun] at hleases; exact absurd (List.cons.inj hleases).1 (by simp [Except.toOption])
  | ok sc =>
      obtain ⟨old, expiry, closes, hgrant, hlaw⟩ := lease_law hrun
      exact ⟨sc, rfl, old, expiry, closes, hgrant, hlaw.mpr (.inl (by decide))⟩

/-- The lease "0100" ends after 64 seconds. -/
theorem lease_octal : ∃ sc, labLease "0100" = .ok sc ∧
    ∀ old expiry closes, LeaseGrant lab (replay lab labDispatched) "p1" (labTask 1).1 sc old expiry closes →
      ¬ LeaseLaw (labWorld []) .claim "0100" old expiry closes := by
  obtain ⟨hleases, hwindow⟩ := labLease_granted
  simp only [List.map_cons, List.map_nil, List.cons.injEq, and_true] at hleases
  obtain ⟨-, hlease⟩ := hleases
  cases hrun : labLease "0100" with
  | error e => rw [hrun] at hlease; exact absurd hlease (by simp [Except.toOption])
  | ok sc =>
      rw [hrun] at hlease
      refine ⟨sc, rfl, fun old expiry closes hgrant hlaw => ?_⟩
      obtain ⟨⟨d, hd, -, hcloses⟩, new, rest, hwrites, -, hexpiry⟩ := hgrant
      rw [hd, Option.map_some, Option.some.injEq, hcloses, Option.some.injEq] at hwindow
      have hfirst : sc.leaseExpiry = some expiry := by
        unfold Script.leaseExpiry
        rw [hwrites]
        exact hexpiry
      have h64 : expiry = 1768006864 := Option.some.inj (hfirst.symm.trans hlease)
      obtain ⟨seconds, hseconds, hexact⟩ := hlaw.exact
      have h100 : seconds = 100 := Option.some.inj (hseconds.symm.trans (by decide))
      have hclock : (labWorld []).clock 3 = 1768006800 := rfl
      omega

end OraclePatching
