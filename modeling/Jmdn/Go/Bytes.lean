import Mathlib.Data.Nat.Digits.Lemmas

/-!
# Big-endian bytes

`big.Int.Bytes` and `big.Int.SetBytes`, and the fixed-width words of go-ethereum
as byte arrays.  A number is read back from its bytes; zero has none.
-/

namespace Jmdn.Go

open List

variable {width size : Nat}

/-- `big.Int.Bytes`: the magnitude without leading zeros. -/
def bytes (n : Nat) : List UInt8 :=
  ((Nat.digits 256 n).map UInt8.ofNat).reverse

/-- `big.Int.SetBytes`. -/
def setBytes (data : List UInt8) : Nat :=
  Nat.ofDigits 256 (data.reverse.map UInt8.toNat)

/-- The bytes of a number in an array of a given size. -/
def fixedBytes (size n : Nat) : List UInt8 :=
  List.replicate (size - (bytes n).length) 0 ++ bytes n

@[simp]
theorem setBytes_bytes (n : Nat) : setBytes (bytes n) = n := by
  have digits : ((Nat.digits 256 n).map UInt8.ofNat).map UInt8.toNat = Nat.digits 256 n := by
    rw [map_map]
    refine (map_congr_left fun digit mem => ?_).trans (map_id _)
    exact UInt8.toNat_ofNat_of_lt' (Nat.digits_lt_base (by decide) mem)
  rw [setBytes, bytes, reverse_reverse, digits, Nat.ofDigits_digits]

theorem bytes_eq_nil_iff {n : Nat} : bytes n = [] ↔ n = 0 := by
  simp [bytes, Nat.digits_eq_nil_iff_eq_zero]

@[simp]
theorem setBytes_fixedBytes (size n : Nat) : setBytes (fixedBytes size n) = n := by
  conv_rhs => rw [← setBytes_bytes n]
  simp only [setBytes, fixedBytes, reverse_append, reverse_replicate, map_append,
    map_replicate]
  exact Nat.ofDigits_append_replicate_zero ..

theorem bytes_length_le {n : Nat} (small : n < 256 ^ size) : (bytes n).length ≤ size := by
  rw [bytes, length_reverse, length_map]
  exact (Nat.digits_length_le_iff (by decide) n).mpr small

theorem fixedBytes_length {n : Nat} (small : n < 256 ^ size) :
    (fixedBytes size n).length = size := by
  have short := bytes_length_le small
  rw [fixedBytes, length_append, length_replicate]
  omega

/-- `[]byte(text)`. -/
def utf8 (text : String) : List UInt8 :=
  text.toUTF8.toList

theorem toList_loop_eq (array : ByteArray) (i : Nat) (read : List UInt8) :
    ByteArray.toList.loop array i read = read.reverse ++ array.data.toList.drop i := by
  fun_induction ByteArray.toList.loop array i read with
  | case1 i read inside ih =>
    have inside : i < array.data.toList.length := inside
    have got : array.get! i = array.data.toList[i] := getElem!_pos array.data i inside
    rw [ih, reverse_cons, append_assoc, singleton_append, got,
      getElem_cons_drop]
  | case2 i read outside =>
    rw [drop_of_length_le, append_nil]
    exact Nat.le_of_not_lt outside

theorem utf8_injective : Function.Injective utf8 := by
  intro first second same
  unfold utf8 ByteArray.toList at same
  rw [toList_loop_eq, toList_loop_eq] at same
  exact String.toByteArray_inj.mp (ByteArray.ext (Array.toList_inj.mp same))

/-- The array of a word. -/
def wordBytes {width : Nat} (word : BitVec width) : List UInt8 :=
  fixedBytes (width / 8) word.toNat

/-- `BytesToAddress` and `BytesToHash`: a longer text loses its front, a shorter
one is aligned to the right. -/
def bytesToWord (width : Nat) (data : List UInt8) : BitVec width :=
  BitVec.ofNat width (setBytes data)

@[simp]
theorem bytesToWord_wordBytes (word : BitVec width) :
    bytesToWord width (wordBytes word) = word := by
  rw [bytesToWord, wordBytes, setBytes_fixedBytes, BitVec.ofNat_toNat, BitVec.setWidth_eq]

theorem wordBytes_ne_nil (wide : 8 ≤ width) (word : BitVec width) :
    wordBytes word ≠ [] := by
  intro empty
  have length := congrArg List.length empty
  rw [wordBytes, fixedBytes, length_append, length_replicate, length_nil] at length
  omega

end Jmdn.Go
