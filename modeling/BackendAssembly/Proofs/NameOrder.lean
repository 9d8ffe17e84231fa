import BackendAssembly.Store
import Mathlib.Data.List.Lex

namespace BackendAssembly

def utf8Bytes (s : String) : List UInt8 :=
  s.toUTF8.data.toList

theorem utf8Bytes_ofList (cs : List Char) : utf8Bytes (String.ofList cs) = cs.flatMap String.utf8EncodeChar := by
  rw [utf8Bytes, String.toUTF8_eq_toByteArray, String.toByteArray_ofList, List.utf8Encode, List.data_toByteArray]

/-- The lists agree up to a place where the first one has the smaller byte. -/
def Undercuts (u v : List UInt8) : Prop :=
  ∃ start x y p q, u = start ++ x :: p ∧ v = start ++ y :: q ∧ x < y

theorem Undercuts.append_lt {u v : List UInt8} (h : Undercuts u v) (p q : List UInt8) : u ++ p < v ++ q := by
  obtain ⟨start, x, y, r, s, rfl, rfl, hlt⟩ := h
  rw [List.append_assoc, List.append_assoc]
  exact List.Lex.append_left _ (List.Lex.rel hlt) start

theorem undercuts_cons {m n : Nat} {p q : List UInt8} (hn : n < 256) (h : m < n ∨ m = n ∧ Undercuts p q) :
    Undercuts (UInt8.ofNat m :: p) (UInt8.ofNat n :: q) := by
  rcases h with hlt | ⟨rfl, start, x, y, r, s, rfl, rfl, hlt⟩
  · refine ⟨[], UInt8.ofNat m, UInt8.ofNat n, p, q, rfl, rfl, ?_⟩
    rw [UInt8.lt_iff_toNat_lt, UInt8.toNat_ofNat', UInt8.toNat_ofNat']
    omega
  · exact ⟨UInt8.ofNat m :: start, x, y, r, s, rfl, rfl, hlt⟩

/-- A character of smaller code has smaller bytes: its first byte is smaller if it takes fewer bytes, and otherwise
the bytes are the digits of the code, the most significant first. -/
theorem undercuts_utf8EncodeChar {c d : Char} (h : c < d) :
    Undercuts (String.utf8EncodeChar c) (String.utf8EncodeChar d) := by
  have hlt : c.val.toNat < d.val.toNat := UInt32.lt_iff_toNat_lt.mp h
  have hd : d.val.toNat < 0x110000 := by
    have hvalid := d.valid
    simp only [UInt32.isValidChar, Nat.isValidChar] at hvalid
    omega
  simp only [String.utf8EncodeChar]
  generalize c.val.toNat = m at hlt ⊢
  generalize d.val.toNat = n at hlt hd ⊢
  have hdigit : ∀ k, m / k = n / k ∨ m / k < n / k := fun k =>
    (Nat.lt_or_eq_of_le (Nat.div_le_div_right hlt.le)).symm
  have h64 := hdigit 64
  have h4096 := hdigit 4096
  have h262144 := hdigit 262144
  -- By the number of bytes that each one takes; where it is the same, the first digits that differ decide.
  split_ifs with hm₁ hn₁ hn₂ hn₃ hm₂ hn₁ hn₂ hn₃ hm₃ hn₁ hn₂ hn₃ hn₁ hn₂ hn₃
  · exact undercuts_cons (by omega) (.inl hlt)
  · exact undercuts_cons (by omega) (.inl (by omega))
  · exact undercuts_cons (by omega) (.inl (by omega))
  · exact undercuts_cons (by omega) (.inl (by omega))
  · omega
  · refine undercuts_cons (by omega) (h64.symm.imp (fun h => by omega) fun h => ⟨by omega, ?_⟩)
    exact undercuts_cons (by omega) (.inl (by omega))
  · exact undercuts_cons (by omega) (.inl (by omega))
  · exact undercuts_cons (by omega) (.inl (by omega))
  · omega
  · omega
  · refine undercuts_cons (by omega) (h4096.symm.imp (fun h => by omega) fun h => ⟨by omega, ?_⟩)
    refine undercuts_cons (by omega) (h64.symm.imp (fun h => by omega) fun h => ⟨by omega, ?_⟩)
    exact undercuts_cons (by omega) (.inl (by omega))
  · exact undercuts_cons (by omega) (.inl (by omega))
  · omega
  · omega
  · omega
  · refine undercuts_cons (by omega) (h262144.symm.imp (fun h => by omega) fun h => ⟨by omega, ?_⟩)
    refine undercuts_cons (by omega) (h4096.symm.imp (fun h => by omega) fun h => ⟨by omega, ?_⟩)
    refine undercuts_cons (by omega) (h64.symm.imp (fun h => by omega) fun h => ⟨by omega, ?_⟩)
    exact undercuts_cons (by omega) (.inl (by omega))

theorem flatMap_utf8EncodeChar_lt {u v : List Char} (h : u < v) :
    u.flatMap String.utf8EncodeChar < v.flatMap String.utf8EncodeChar := by
  induction h with
  | @nil d ds =>
    obtain ⟨b, bs, hd⟩ := List.exists_cons_of_ne_nil (String.utf8EncodeChar_ne_nil (c := d))
    rw [List.flatMap_nil, List.flatMap_cons, hd]
    exact List.Lex.nil
  | cons _ ih =>
    rw [List.flatMap_cons, List.flatMap_cons]
    exact List.Lex.append_left _ ih _
  | rel h =>
    rw [List.flatMap_cons, List.flatMap_cons]
    exact (undercuts_utf8EncodeChar h).append_lt _ _

theorem utf8Bytes_lt {a b : String} (h : a < b) : utf8Bytes a < utf8Bytes b := by
  rw [← String.ofList_toList (s := a), ← String.ofList_toList (s := b), utf8Bytes_ofList, utf8Bytes_ofList]
  exact flatMap_utf8EncodeChar_lt (String.lt_iff.mp h)

end BackendAssembly
