/-!
# Numbers in bytes

A number of a file stands in a fixed count of bytes, the highest first.
-/

namespace TimingReport.Number

/-- The four bytes of a number. -/
def bigEndian (n : Nat) : List UInt8 :=
  [UInt8.ofNat (n / 16777216), UInt8.ofNat (n / 65536), UInt8.ofNat (n / 256),
   UInt8.ofNat n]

/-- The number in the first `size` bytes, if there are so many, and the bytes behind. -/
def takeNumber? (size : Nat) (bytes : List UInt8) : Option (Nat × List UInt8) :=
  let digits := bytes.take size
  if digits.length = size then
    some (digits.foldl (fun value byte => value * 256 + byte.toNat) 0, bytes.drop size)
  else none

@[simp]
theorem length_bigEndian (n : Nat) : (bigEndian n).length = 4 := rfl

theorem takeNumber?_bigEndian {n : Nat} (hn : n < 4294967296) (rest : List UInt8) :
    takeNumber? 4 (bigEndian n ++ rest) = some (n, rest) := by
  have htake : (bigEndian n ++ rest).take 4 = bigEndian n := rfl
  have hdrop : (bigEndian n ++ rest).drop 4 = rest := rfl
  rw [takeNumber?, htake, hdrop, if_pos (length_bigEndian n)]
  simp only [bigEndian, List.foldl_cons, List.foldl_nil, UInt8.toNat_ofNat']
  congr 2
  omega

theorem take_of_takeNumber? {n : Nat} {bytes rest : List UInt8}
    (htake : takeNumber? 4 bytes = some (n, rest)) : bytes.take 4 = bigEndian n := by
  rw [takeNumber?] at htake
  split at htake
  · next hlength =>
    match bytes, hlength with
    | a :: b :: c :: d :: behind, _ =>
      obtain ⟨rfl, -⟩ := Prod.mk.inj (Option.some.inj htake)
      have ha := a.toNat_lt
      have hb := b.toNat_lt
      have hc := c.toNat_lt
      have hd := d.toNat_lt
      simp only [List.take_succ_cons, List.take_zero, List.foldl_cons, List.foldl_nil,
        bigEndian, List.cons.injEq, and_true, ← UInt8.toNat_inj, UInt8.toNat_ofNat']
      omega
  · cases htake

end TimingReport.Number
