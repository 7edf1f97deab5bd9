namespace CnfAudit.Octets

private theorem drop_length_lt {size : Nat} {bytes : List UInt8}
    (h : ¬(size = 0 ∨ bytes = [])) : (bytes.drop size).length < bytes.length := by
  have hlen : bytes.length ≠ 0 := fun hlen => h (.inr (List.length_eq_zero_iff.1 hlen))
  have hsize : size ≠ 0 := fun hsize => h (.inl hsize)
  simp only [List.length_drop]
  omega

def blocks (size : Nat) (bytes : List UInt8) : List (List UInt8) :=
  if h : size = 0 ∨ bytes = [] then []
  else
    have := drop_length_lt h
    bytes.take size :: blocks size (bytes.drop size)
termination_by bytes.length

end CnfAudit.Octets
