import Sentinel.Core.Clock
import Mathlib.Data.List.Basic

/-!
# Signed licences

A licence grants the use of the software for a term, on one machine unless its
machine map is empty.  `verify` checks the signature, the term and the machine,
in this order; a refusal says which of the three failed.  Instants and spans
are nanoseconds of the wall clock, which the customer may set as they like.
-/

namespace Sentinel

abbrev MachineMap := List (String × String)

structure License where
  licenceId : String
  issued : ℤ
  /-- `none` for a perpetual licence. -/
  expiry : Option ℤ
  machine : MachineMap
  activationUrl : Option String
  activationIntervalHours : ℤ
deriving DecidableEq

/-! ## The machine -/

def matchThreshold : ℕ := 3

def fingerprintMatched (bound current : MachineMap) : MachineMap :=
  bound.filter fun component => current.lookup component.1 = some component.2

def fingerprintMatches (bound current : MachineMap) : Bool :=
  if bound.isEmpty then true
  else
    decide (min matchThreshold bound.length ≤ (fingerprintMatched bound current).length ∧
      0 < min matchThreshold bound.length)

/-! ## Verification -/

inductive LicenseRefusal where
  | invalid
  | expired
  | machineMismatch
deriving DecidableEq

def licenceSlackNs : ℤ := 24 * hourNs

namespace License

def pastGrace (l : License) (graceDays now : ℤ) : Bool :=
  match l.expiry with
  | none => false
  | some expiry => decide (expiry + graceDays * dayNs < now)

/-- The checks a parsed licence must pass; `signed` says whether its signature
verifies under the vendor's key. -/
def verify (l : License) (signed : Bool) (graceDays now : ℤ) (current : MachineMap) :
    Except LicenseRefusal License :=
  if !signed then .error .invalid
  else if now + licenceSlackNs < l.issued then .error .invalid
  else if l.pastGrace graceDays now then .error .expired
  else if !l.machine.isEmpty && !fingerprintMatches l.machine current then
    .error .machineMismatch
  else .ok l

theorem verify_eq_ok {l l' : License} {signed : Bool} {graceDays now : ℤ}
    {current : MachineMap} (h : l.verify signed graceDays now current = .ok l') :
    l' = l ∧ signed = true ∧ l.pastGrace graceDays now = false := by
  rw [verify] at h
  split_ifs at h with hsigned hissued hgrace hmachine
  refine ⟨?_, by simpa using hsigned, by simpa using hgrace⟩
  cases h
  rfl

theorem pastGrace_of_expired {l : License} {signed : Bool} {graceDays now : ℤ}
    {current : MachineMap} (h : l.verify signed graceDays now current = .error .expired) :
    signed = true ∧ l.pastGrace graceDays now = true := by
  rw [verify] at h
  split_ifs at h with hsigned hissued hgrace hmachine
  · cases h
  · cases h
  · exact ⟨by simpa using hsigned, hgrace⟩
  · cases h

end License

end Sentinel
