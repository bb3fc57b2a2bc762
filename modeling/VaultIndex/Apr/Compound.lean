import VaultIndex.Double.Text

/-!
# Compounding

An APR becomes an APY by compounding it every week. Only here are decimals rounded to doubles.
-/

namespace VaultIndex

/-- The yield of a year in which a rate is compounded so many times. -/
def apyOfApr (apr periods : Float) : Float := Float.pow (1 + apr / periods) periods - 1

/-- The number of weeks in which a year's rate is compounded. -/
def compoundingPeriods : Float := 52

/-- The compounded rate with the fewest digits that tell it apart; zero where it is no finite
number. -/
def compoundApr (apr : Decimal) : Decimal :=
  let apy := apyOfApr (Double.ofDecimal apr) compoundingPeriods
  if apy.isFinite then Double.shortestDecimal apy else .zero

end VaultIndex
