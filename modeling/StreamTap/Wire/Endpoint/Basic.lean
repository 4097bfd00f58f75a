/-!
# Endpoints

An endpoint is one end of a TCP connection: the address of a host and a port.
Addresses of version 6 are kept as eight 16-bit groups, which is how they are
written and read, and carry the number of the scope they are meant in.
-/

namespace StreamTap

/-- An address of version 4: four octets. -/
structure IPv4 where
  a : UInt8
  b : UInt8
  c : UInt8
  d : UInt8
  deriving DecidableEq, Repr

/-- An address of version 6: eight groups of 16 bits. -/
structure IPv6 where
  groups : List UInt16
  length_groups : groups.length = 8
  deriving DecidableEq, Repr

/-- The address of a host. -/
inductive Host where
  | v4 (address : IPv4)
  | v6 (address : IPv6) (scope : UInt32)
  deriving DecidableEq, Repr

/-- A host and a port on it. -/
structure Endpoint where
  host : Host
  port : UInt16
  deriving DecidableEq, Repr

/-- The address that eight groups make up; any other number of groups is cut or
filled up with zeros at the end. -/
def IPv6.ofGroups (gs : List UInt16) : IPv6 where
  groups := (gs ++ List.replicate 8 0).take 8
  length_groups := by simp

theorem IPv6.groups_ofGroups {gs : List UInt16} (h : gs.length = 8) :
    (IPv6.ofGroups gs).groups = gs := by
  simp [IPv6.ofGroups, List.take_append_of_le_length (Nat.le_of_eq h.symm),
    List.take_of_length_le (Nat.le_of_eq h)]

end StreamTap
