import Mathlib.Data.List.Sort
import Sentinel.Core.Types
import Sentinel.Support.Dict

/-!
# Portfolio exposure decomposition

Netting by currency leg, gross notional in the account currency, and the
single-linkage clusters of the correlation graph.
-/

namespace Sentinel

/-- Sorted by code point, as `sorted` on names. -/
def sortedNames (names : List String) : List String := names.insertionSort (· ≤ ·)

@[simp] theorem mem_sortedNames {names : List String} {n : String} :
    n ∈ sortedNames names ↔ n ∈ names :=
  List.mem_insertionSort _

/-! ## Currency legs -/

structure CurrencyExposure where
  currency : String
  netRisk : Dec
  grossRisk : Dec
  netNotional : Dec
  contributors : List String

structure Leg where
  instrument : String
  base : String
  quote : String
  sign : Dec
  risk : Dec
  notional : Dec

/-- The rate from a quote currency to the account currency, as
`currency_exposure` looks it up. -/
def legRate (conversions : Dict String Dec) (accountCurrency quote : String) : Option Dec :=
  if quote = accountCurrency then some 1 else conversions.get? quote

/-- One round of the loop of `currency_exposure`: nothing for an unknown
instrument, the instrument when its quote currency has no rate, else a leg. -/
def exposureLeg (instruments : Dict String Instrument) (riskByInstrument : Dict String Dec)
    (conversions midPrices : Dict String Dec) (accountCurrency : String)
    (pos : Position) : Option (String ⊕ Leg) :=
  match instruments.get? pos.instrument with
  | none => none
  | some inst =>
      match legRate conversions accountCurrency inst.quote with
      | none => some (.inl pos.instrument)
      | some conv =>
          let mid := midPrices.getD pos.instrument pos.entryPrice
          some (.inr
            { instrument := pos.instrument
              base := inst.base
              quote := inst.quote
              sign := pos.side.sign
              risk := riskByInstrument.getD pos.instrument pos.initialRisk
              notional := inst.units pos.lots * mid * conv })

def Leg.split (leg : Leg) (amount : Dec) : List (String × Dec) :=
  [(leg.base, amount * leg.sign), (leg.quote, -(amount * leg.sign))]

/-- `currency_exposure`, with the instruments it could not convert. -/
def currencyExposure (positions : List Position) (instruments : Dict String Instrument)
    (riskByInstrument conversions midPrices : Dict String Dec)
    (accountCurrency : String) : List CurrencyExposure × List String :=
  let rounds := positions.filterMap
    (exposureLeg instruments riskByInstrument conversions midPrices accountCurrency)
  let legs := rounds.filterMap Sum.getRight?
  let netRisk := Dict.totals (legs.flatMap fun l => l.split l.risk)
  let grossRisk := Dict.totals (legs.flatMap fun l => [(l.base, |l.risk|), (l.quote, |l.risk|)])
  let netNotional := Dict.totals (legs.flatMap fun l => l.split l.notional)
  let exposure (ccy : String) : CurrencyExposure :=
    { currency := ccy
      netRisk := netRisk.getD ccy 0
      grossRisk := grossRisk.getD ccy 0
      netNotional := netNotional.getD ccy 0
      contributors :=
        sortedNames
          ((legs.filter fun l => l.base = ccy ∨ l.quote = ccy).map Leg.instrument).dedup }
  ((sortedNames netRisk.keys).map exposure, rounds.filterMap Sum.getLeft?)

/-! ## Gross notional -/

/-- One round of the loop of `gross_notional`. -/
def notionalRound (instruments : Dict String Instrument) (midPrices conversions : Dict String Dec)
    (accountCurrency : String) (pos : Position) : Option (String ⊕ Dec) :=
  match instruments.get? pos.instrument with
  | none => none
  | some inst =>
      let mid := midPrices.getD pos.instrument pos.entryPrice
      if inst.quote = accountCurrency then some (.inr (inst.units pos.lots * mid * 1))
      else
        match conversions.get? inst.quote with
        | none => some (.inl inst.quote)
        | some rate =>
            if rate ≤ 0 then some (.inl inst.quote)
            else some (.inr (inst.units pos.lots * mid * rate))

/-- `gross_notional`, with the quote currencies it could not convert. -/
def grossNotional (positions : List Position) (instruments : Dict String Instrument)
    (midPrices conversions : Dict String Dec) (accountCurrency : String) :
    Dec × List String :=
  let rounds := positions.filterMap
    (notionalRound instruments midPrices conversions accountCurrency)
  ((rounds.filterMap Sum.getRight?).sum, (rounds.filterMap Sum.getLeft?).dedup)

/-! ## Correlation clusters -/

structure Cluster where
  instruments : List String
  totalRisk : Dec
  maxPairwiseCorr : Dec

/-- `corr`: either order of the pair, zero when the pair was not estimated. -/
def pairCorrelation (correlations : Dict (String × String) Dec) (a b : String) : Dec :=
  correlations.getD (a, b) (correlations.getD (b, a) 0)

def orderedPairs : List String → List (String × String)
  | [] => []
  | a :: rest => rest.map (fun b => (a, b)) ++ orderedPairs rest

/-- `union`: the root of `b` comes under the root of `a`.  A name is kept with
its root, so the chain that `find` would climb is already climbed. -/
def unionRoots (roots : Dict String String) (a b : String) : Dict String String :=
  let ra := roots.getD a a
  let rb := roots.getD b b
  if ra ≠ rb then roots.mapValues fun r => if r = rb then ra else r else roots

def clusterRoots (names : List String) (correlations : Dict (String × String) Dec)
    (threshold : Dec) : Dict String String :=
  (orderedPairs names).foldl
    (fun roots ab =>
      if threshold ≤ |pairCorrelation correlations ab.1 ab.2| then
        unionRoots roots ab.1 ab.2
      else roots)
    (names.foldl (fun d n => d.set n n) Dict.empty)

/-- `correlation_clusters`, the riskiest cluster first. -/
def correlationClusters (candidates : List String) (riskByInstrument : Dict String Dec)
    (correlations : Dict (String × String) Dec) (threshold : Dec) : List Cluster :=
  let names := (candidates.foldl (fun d n => d.set n ()) (Dict.empty : Dict String Unit)).keys
  let roots := clusterRoots names correlations threshold
  let groups := names.foldl
    (fun (d : Dict String (List String)) n =>
      let root := roots.getD n n
      d.set root (d.getD root [] ++ [n]))
    Dict.empty
  let cluster (members : List String) : Cluster :=
    { instruments := sortedNames members
      totalRisk := (members.map fun m => riskByInstrument.getD m 0).sum
      maxPairwiseCorr :=
        ((orderedPairs members).map fun ab =>
          |pairCorrelation correlations ab.1 ab.2|).foldl max 0 }
  (groups.values.map cluster).insertionSort fun c d => d.totalRisk ≤ c.totalRisk

end Sentinel
