import Geocoding.Text.Case

/-!
# Configuration

The limits of a search and the word frequencies that decide how words are read. `Config.check`
refuses limits that would leave every search empty.
-/

namespace Geocoding

/-- The largest number of results that can be asked for. -/
def maxResultLimit : Nat := 50

/-- How many places must carry a word for it to be common, and how few for it to be rare. -/
structure FrequencyThresholds where
  /-- Words that at least so many places carry are not searched for. -/
  common : Nat := 50000
  /-- Names that fewer places carry can be searched for alone; none of them if there is no
  number. -/
  rare : Option Nat := some 500
deriving DecidableEq, Repr

namespace FrequencyThresholds

/-- The word is too common to be searched for. -/
def isCommon (t : FrequencyThresholds) (occurrences : Nat) : Bool :=
  t.common ≤ occurrences

/-- The name is rare enough to be searched for alone. -/
def isRare (t : FrequencyThresholds) (occurrences : Nat) : Bool :=
  t.rare.any (occurrences < ·)

end FrequencyThresholds

/-- Limits on the interpretations of a query. -/
structure PlannerLimits where
  /-- Interpretations that cost so much or more are dropped. -/
  maxCost : Nat := 20
  /-- Interpretations kept after each token. -/
  beamWidth : Nat := 50
  /-- Interpretations kept per phrase. -/
  perPhrase : Nat := 100
  /-- Buckets of equal cost are carried to the next phrase until they hold more than so many. -/
  frontierBudget : Nat := 50
deriving DecidableEq, Repr

/-- Limits on the lookups made for a query. -/
structure ResolverLimits where
  /-- Interpretations of equal cost that are looked up. -/
  perGroup : Nat := 20
  /-- Groups of equal cost that are visited. -/
  maxGroups : Nat := 4
  /-- Interpretations that are looked up in total. -/
  maxQueries : Nat := 30
  /-- The interpretations of a group may be looked up at the same time. -/
  parallel : Bool := false
deriving DecidableEq, Repr

/-- The configuration of forward searches. -/
structure Config where
  /-- The largest number of results. -/
  limit : Nat := 10
  planner : PlannerLimits := {}
  resolver : ResolverLimits := {}
  frequencies : FrequencyThresholds := {}
  /-- Structured queries without a result are tried again with a field less. -/
  fallback : Bool := false
  /-- Codes of the countries whose parcels have house numbers. -/
  parcelCountries : List String := ["us"]
deriving DecidableEq, Repr

/-- What is wrong with a configuration. -/
inductive ConfigError where
  | zeroLimit (name : String)
  | rareAboveCommon
deriving DecidableEq, Repr

/-- The text of a configuration error. -/
def ConfigError.message : ConfigError → String
  | zeroLimit name => name ++ " must be greater than zero"
  | rareAboveCommon => "name_only_threshold must not exceed max_word_frequency"

/-- A number of results that can be asked for. -/
def clampLimit (limit : Nat) : Nat :=
  min (max limit 1) maxResultLimit

/-- How many places a lookup returns for a number of results, so that some can be dropped. -/
def lookupLimit (limit : Nat) : Nat :=
  clampLimit limit + max (clampLimit limit) 10

namespace Config

/-- Fast searches: fewer interpretations and lookups. -/
def fast : Config where
  limit := 5
  planner := { beamWidth := 20, perPhrase := 40, frontierBudget := 20 }
  resolver := { perGroup := 10, maxQueries := 15 }

/-- Thorough searches: more interpretations and lookups, and a second try. -/
def thorough : Config where
  limit := 20
  planner := { maxCost := 25, beamWidth := 100, perPhrase := 200, frontierBudget := 100 }
  resolver := { maxQueries := 60, parallel := true }
  fallback := true

/-- The configuration with another number of results. -/
def withLimit (config : Config) (limit : Nat) : Config :=
  { config with limit := clampLimit limit }

/-- The configuration with other countries whose parcels have house numbers. -/
def withParcelCountries (config : Config) (countries : List String) : Config :=
  { config with parcelCountries := countries.map Text.lower }

/-- How many places a lookup returns. -/
def queryLimit (config : Config) : Nat :=
  lookupLimit config.limit

/-- The limits that must not be zero, with their names. -/
def positiveLimits (config : Config) : List (String × Nat) := [
  ("planner.max_rank", config.planner.maxCost),
  ("planner.beam_width", config.planner.beamWidth),
  ("planner.phrase_state_limit", config.planner.perPhrase),
  ("planner.frontier_budget", config.planner.frontierBudget),
  ("resolver.max_states_per_group", config.resolver.perGroup),
  ("resolver.max_groups", config.resolver.maxGroups),
  ("resolver.max_total_queries", config.resolver.maxQueries)]

/-- The configuration itself, unless one of its limits would leave every search empty. -/
def check (config : Config) : Except ConfigError Config :=
  match config.positiveLimits.find? (·.2 = 0) with
  | some (name, _) => .error (.zeroLimit name)
  | none =>
    if config.frequencies.rare.any (config.frequencies.common < ·) then .error .rareAboveCommon
    else .ok config

end Config

end Geocoding
