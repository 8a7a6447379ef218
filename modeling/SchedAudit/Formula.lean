import SchedAudit.Binary64

/-!
# The formulas of GRUB and of the frequency rules

Three formulas over the scaled utilizations of the servers of one cluster with `m` processors. They
know nothing about traces.

* `bandwidth` — the share of the processors that is reclaimed for the attached servers:
  `1 - (m - (m - 1) * u_max - total) / m`.
* `rawFrequency` — the frequency before it is rounded to a mode:
  `f_max * (total + (m - 1) * u_max) / m`.
* `activeCores` — how many cores CSF keeps awake:
  `(total - u_max) / (1 - u_max)`, rounded up, at least one and at most `m`.
-/

namespace SchedAudit.Formula

/-- The bandwidth of a cluster whose attached servers have these utilizations. Without any it is
one. What is zero or less belongs to a cluster with more servers than it can serve. -/
def bandwidth (processors : Nat) (utilizations : List Float) : Float :=
  if utilizations.isEmpty then 1.0
  else
    let m := Float.ofNat processors
    let uMax := Binary64.largest Binary64.lowest utilizations
    let inactive := m - (m - 1.0) * uMax - Binary64.total utilizations
    1.0 - inactive / m

/-- The frequency that the utilizations ask for, not yet rounded to a mode. -/
def rawFrequency (top total uMax : Float) (processors : Nat) : Float :=
  let m := Float.ofNat processors
  top * (total + (m - 1.0) * uMax) / m

/-- The number of cores that the active servers need. A server that fills a core alone keeps all of
them awake. -/
def activeCores (total uMax : Float) (processors : Nat) : Nat :=
  if uMax ≥ 1.0 then processors
  else
    let needed := (total - uMax) / (1.0 - uMax)
    if needed ≤ 1.0 then 1 else Binary64.ceilingUpTo processors needed

end SchedAudit.Formula
