namespace ClauseTemplates

/-- A power of a natural number, with the operation written out, so that it is the same one whatever
is imported. -/
def power (base exponent : Nat) : Nat :=
  @HPow.hPow Nat Nat Nat (@instHPow Nat Nat (@instPowNat Nat instNatPowNat)) base exponent

end ClauseTemplates
