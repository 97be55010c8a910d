import Mathlib.Tactic.Common
import ImageRegistry.Text.Base64Url

/-! Encoded octets are decoded to themselves. -/

namespace ImageRegistry.Base64Url

lemma value?_symbol {n : Nat} (h : n < 64) : value? (symbol n) = some n := by
  revert n
  decide

lemma encodeFrom_eq (o : Octets) (written : List Char) :
    encodeFrom o written = written.reverse ++ encodeFrom o [] := by
  match o with
  | [] | [a] | [a, b] => simp [encodeFrom]
  | a :: b :: c :: rest =>
    have later := encodeFrom_eq rest
    simp only [encodeFrom]
    rw [later (_ :: _ :: _ :: _ :: written), later [_, _, _, _]]
    simp

lemma ofNat_eq {b : UInt8} {n : Nat} (h : n % 256 = b.toNat) : UInt8.ofNat n = b := by
  apply UInt8.toNat_inj.1
  rw [UInt8.toNat_ofNat', h]

lemma decodeFrom?_encodeFrom (o read : Octets) :
    decodeFrom? (encodeFrom o []) read = some (read.reverse ++ o) := by
  match o with
  | [] => simp [encodeFrom, decodeFrom?]
  | [a] =>
    have ha := a.toNat_lt
    simp only [encodeFrom, List.reverse_cons, List.reverse_nil, List.nil_append,
      List.singleton_append, decodeFrom?]
    rw [value?_symbol (by omega), value?_symbol (by omega)]
    simp only
    rw [if_pos (by omega), ofNat_eq (b := a) (by omega)]
  | [a, b] =>
    have ha := a.toNat_lt
    have hb := b.toNat_lt
    simp only [encodeFrom, List.reverse_cons, List.reverse_nil, List.nil_append, List.cons_append,
      decodeFrom?]
    rw [value?_symbol (by omega), value?_symbol (by omega), value?_symbol (by omega)]
    simp only
    rw [if_pos (by omega), ofNat_eq (b := a) (by omega), ofNat_eq (b := b) (by omega)]
    simp
  | a :: b :: c :: rest =>
    have ha := a.toNat_lt
    have hb := b.toNat_lt
    have hc := c.toNat_lt
    rw [encodeFrom, encodeFrom_eq]
    simp only [List.reverse_cons, List.reverse_nil, List.nil_append, List.cons_append, decodeFrom?]
    rw [value?_symbol (by omega), value?_symbol (by omega), value?_symbol (by omega),
      value?_symbol (by omega)]
    simp only
    rw [ofNat_eq (b := c) (by omega), ofNat_eq (b := b) (by omega), ofNat_eq (b := a) (by omega),
      decodeFrom?_encodeFrom rest]
    simp

theorem decode?_encode (o : Octets) : decode? (encode o) = some o := by
  rw [decode?, encode, String.toList_ofList, decodeFrom?_encodeFrom]
  rfl

end ImageRegistry.Base64Url
