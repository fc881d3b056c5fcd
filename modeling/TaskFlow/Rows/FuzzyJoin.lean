import TaskFlow.EditDistance
import TaskFlow.Rows.Basic

namespace TaskFlow.Rows

def roundScore (score : Double) : Double := (score.mul (.ofNat 10000)).round.div (.ofNat 10000)

def mergeScored (left right : Row) (score : Double) : Row :=
  .obj (Json.insertField "similarity" (Json.ofDouble (roundScore score))
    (right.fields.foldl addRight left.fields))

/-- Rows with their keys in a field, those without a key left out. -/
def keyed (field : String) (rows : List Row) : List (String × Row) :=
  rows.filterMap fun r => (r.keyIn? field).map fun k => (k, r)

/-- The columns and the least score of a join. -/
structure FuzzyKeys where
  leftOn : String
  rightOn : String
  threshold : Double

/-- Every pair of rows whose keys are at least as similar as the threshold, merged with its score,
left rows first in order. -/
def fuzzyJoin (keys : FuzzyKeys) (left right : List Row) : List Row :=
  let rights := keyed keys.rightOn right
  (keyed keys.leftOn left).flatMap fun (lk, l) =>
    rights.filterMap fun (rk, r) =>
      let score := similarity lk rk
      if keys.threshold.le score then some (mergeScored l r score) else none

end TaskFlow.Rows
