import BackendAssembly.Proofs.NameOrder

namespace BackendAssembly

namespace Utf8

def IsTrail (b : UInt8) : Prop :=
  0x80 ≤ b.toNat ∧ b.toNat < 0xc0

/-- The bytes that write a character, by its code. The conditions on the second byte leave out what takes fewer bytes,
the halves of pairs, and what is above the last code. -/
inductive Writes : List UInt8 → Nat → Prop where
  | one {a : UInt8} (ha : a.toNat < 0x80) : Writes [a] a.toNat
  | two {a b : UInt8} (ha : 0xc2 ≤ a.toNat ∧ a.toNat < 0xe0) (hb : IsTrail b) :
    Writes [a, b] ((a.toNat - 0xc0) * 0x40 + (b.toNat - 0x80))
  | three {a b c : UInt8} (ha : 0xe0 ≤ a.toNat ∧ a.toNat < 0xf0) (hb : IsTrail b) (hc : IsTrail c)
    (hlow : a.toNat = 0xe0 → 0xa0 ≤ b.toNat) (hpair : a.toNat = 0xed → b.toNat < 0xa0) :
    Writes [a, b, c] ((a.toNat - 0xe0) * 0x1000 + (b.toNat - 0x80) * 0x40 + (c.toNat - 0x80))
  | four {a b c d : UInt8} (ha : 0xf0 ≤ a.toNat ∧ a.toNat < 0xf5) (hb : IsTrail b) (hc : IsTrail c) (hd : IsTrail d)
    (hlow : a.toNat = 0xf0 → 0x90 ≤ b.toNat) (hhigh : a.toNat = 0xf4 → b.toNat < 0x90) :
    Writes [a, b, c, d]
      ((a.toNat - 0xf0) * 0x40000 + (b.toNat - 0x80) * 0x1000 + (c.toNat - 0x80) * 0x40 + (d.toNat - 0x80))

inductive Decodes : List UInt8 → List Char → Prop where
  | nil : Decodes [] []
  | cons {bytes rest : List UInt8} {c : Char} {cs : List Char} (hc : Writes bytes c.toNat) (hcs : Decodes rest cs) :
    Decodes (bytes ++ rest) (c :: cs)

def followers (a : UInt8) : Nat :=
  if a.toNat < 0xe0 then 1 else if a.toNat < 0xf0 then 2 else 3

/-- Bytes of which the first ones write no character, by what is wrong with them. -/
inductive Broken : List UInt8 → Prop where
  | stray {a : UInt8} {rest : List UInt8} (ha : IsTrail a) : Broken (a :: rest)
  | truncated {a : UInt8} {trails rest : List UInt8} (ha : 0xc2 ≤ a.toNat ∧ a.toNat < 0xf5)
    (htrails : ∀ b ∈ trails, IsTrail b) (hshort : trails.length < followers a)
    (hrest : ∀ b ∈ rest.head?, ¬IsTrail b) : Broken (a :: (trails ++ rest))
  | overlong₂ {a : UInt8} {rest : List UInt8} (ha : a.toNat = 0xc0 ∨ a.toNat = 0xc1) : Broken (a :: rest)
  | overlong₃ {a b : UInt8} {rest : List UInt8} (ha : a.toNat = 0xe0) (hb : 0x80 ≤ b.toNat ∧ b.toNat < 0xa0) :
    Broken (a :: b :: rest)
  | overlong₄ {a b : UInt8} {rest : List UInt8} (ha : a.toNat = 0xf0) (hb : 0x80 ≤ b.toNat ∧ b.toNat < 0x90) :
    Broken (a :: b :: rest)
  | surrogate {a b : UInt8} {rest : List UInt8} (ha : a.toNat = 0xed) (hb : 0xa0 ≤ b.toNat ∧ b.toNat < 0xc0) :
    Broken (a :: b :: rest)
  | tooLarge {a b : UInt8} {rest : List UInt8} (ha : a.toNat = 0xf4) (hb : 0x90 ≤ b.toNat ∧ b.toNat < 0xc0) :
    Broken (a :: b :: rest)
  | unused {a : UInt8} {rest : List UInt8} (ha : 0xf5 ≤ a.toNat) : Broken (a :: rest)

def Mangled (bytes : List UInt8) : Prop :=
  ∃ start cs rest, bytes = start ++ rest ∧ Decodes start cs ∧ Broken rest

theorem toNat_trail (n : Nat) : (UInt8.ofNat (n % 64 + 0x80)).toNat = n % 64 + 0x80 := by
  rw [UInt8.toNat_ofNat']
  omega

theorem writes_two {n : Nat} (h : 0x80 ≤ n) (hn : n < 0x800) :
    Writes [UInt8.ofNat (n / 64 % 32 + 0xc0), UInt8.ofNat (n % 64 + 0x80)] n := by
  have ha : (UInt8.ofNat (n / 64 % 32 + 0xc0)).toNat = n / 64 + 0xc0 := by
    rw [UInt8.toNat_ofNat']
    omega
  have hb := toNat_trail n
  generalize UInt8.ofNat (n / 64 % 32 + 0xc0) = a at ha
  generalize UInt8.ofNat (n % 64 + 0x80) = b at hb
  have hcode : (a.toNat - 0xc0) * 0x40 + (b.toNat - 0x80) = n := by omega
  exact hcode ▸ .two ⟨by omega, by omega⟩ ⟨by omega, by omega⟩

theorem writes_three {n : Nat} (h : 0x800 ≤ n) (hn : n < 0x10000) (hpair : n < 0xd800 ∨ 0xdfff < n) :
    Writes [UInt8.ofNat (n / 4096 % 16 + 0xe0), UInt8.ofNat (n / 64 % 64 + 0x80), UInt8.ofNat (n % 64 + 0x80)] n := by
  have ha : (UInt8.ofNat (n / 4096 % 16 + 0xe0)).toNat = n / 4096 + 0xe0 := by
    rw [UInt8.toNat_ofNat']
    omega
  have hb := toNat_trail (n / 64)
  have hc := toNat_trail n
  generalize UInt8.ofNat (n / 4096 % 16 + 0xe0) = a at ha
  generalize UInt8.ofNat (n / 64 % 64 + 0x80) = b at hb
  generalize UInt8.ofNat (n % 64 + 0x80) = c at hc
  have hcode : (a.toNat - 0xe0) * 0x1000 + (b.toNat - 0x80) * 0x40 + (c.toNat - 0x80) = n := by omega
  exact hcode ▸ .three ⟨by omega, by omega⟩ ⟨by omega, by omega⟩ ⟨by omega, by omega⟩ (by omega) (by omega)

theorem writes_four {n : Nat} (h : 0x10000 ≤ n) (hn : n < 0x110000) :
    Writes [UInt8.ofNat (n / 262144 % 8 + 0xf0), UInt8.ofNat (n / 4096 % 64 + 0x80),
      UInt8.ofNat (n / 64 % 64 + 0x80), UInt8.ofNat (n % 64 + 0x80)] n := by
  have ha : (UInt8.ofNat (n / 262144 % 8 + 0xf0)).toNat = n / 262144 + 0xf0 := by
    rw [UInt8.toNat_ofNat']
    omega
  have hb := toNat_trail (n / 4096)
  have hc := toNat_trail (n / 64)
  have hd := toNat_trail n
  generalize UInt8.ofNat (n / 262144 % 8 + 0xf0) = a at ha
  generalize UInt8.ofNat (n / 4096 % 64 + 0x80) = b at hb
  generalize UInt8.ofNat (n / 64 % 64 + 0x80) = c at hc
  generalize UInt8.ofNat (n % 64 + 0x80) = d at hd
  have hcode : (a.toNat - 0xf0) * 0x40000 + (b.toNat - 0x80) * 0x1000 + (c.toNat - 0x80) * 0x40 + (d.toNat - 0x80) = n := by
    omega
  exact hcode ▸ .four ⟨by omega, by omega⟩ ⟨by omega, by omega⟩ ⟨by omega, by omega⟩ ⟨by omega, by omega⟩ (by omega)
    (by omega)

theorem writes_utf8EncodeChar (c : Char) : Writes (String.utf8EncodeChar c) c.toNat := by
  have hvalid : c.val.toNat < 0xd800 ∨ 0xdfff < c.val.toNat ∧ c.val.toNat < 0x110000 := c.valid
  have hcode : c.toNat = c.val.toNat := rfl
  rw [hcode]
  simp only [String.utf8EncodeChar]
  generalize c.val.toNat = n at hvalid ⊢
  split_ifs with h₁ h₂ h₃
  · have ha : (UInt8.ofNat n).toNat = n := by
      rw [UInt8.toNat_ofNat']
      omega
    have hone : Writes [UInt8.ofNat n] (UInt8.ofNat n).toNat := .one (by omega)
    rwa [ha] at hone
  · exact writes_two (by omega) (by omega)
  · exact writes_three (by omega) (by omega) (by omega)
  · exact writes_four (by omega) (by omega)

namespace Writes

variable {u v x y : List UInt8} {m n : Nat}

/-- The first byte tells how many bytes a character takes, so no character starts another one. -/
theorem eq_of_append_eq (hu : Writes u m) (hv : Writes v n) (h : u ++ x = v ++ y) : u = v ∧ m = n ∧ x = y := by
  cases hu <;> cases hv <;>
    simp only [List.cons_append, List.nil_append, List.cons.injEq] at h <;>
    obtain ⟨rfl, h⟩ := h
  case one.one => exact ⟨rfl, rfl, h⟩
  case two.two =>
    obtain ⟨rfl, h⟩ := h
    exact ⟨rfl, rfl, h⟩
  case three.three =>
    obtain ⟨rfl, rfl, h⟩ := h
    exact ⟨rfl, rfl, h⟩
  case four.four =>
    obtain ⟨rfl, rfl, rfl, h⟩ := h
    exact ⟨rfl, rfl, h⟩
  all_goals omega

theorem code_valid (h : Writes u n) : n.isValidChar := by
  cases h <;> simp only [IsTrail, Nat.isValidChar] at * <;> omega

theorem bytes_eq (hu : Writes u m) (hv : Writes v n) (h : m = n) : u = v := by
  cases hu <;> cases hv
  case one.one => rw [UInt8.toNat_inj.mp h]
  all_goals simp only [IsTrail] at *
  case two.two a b _ _ a' b' _ _ =>
    have ha : a = a' := UInt8.toNat_inj.mp (by omega)
    have hb : b = b' := UInt8.toNat_inj.mp (by omega)
    rw [ha, hb]
  case three.three a b c _ _ _ _ _ a' b' c' _ _ _ _ _ =>
    have ha : a = a' := UInt8.toNat_inj.mp (by omega)
    have hb : b = b' := UInt8.toNat_inj.mp (by omega)
    have hc : c = c' := UInt8.toNat_inj.mp (by omega)
    rw [ha, hb, hc]
  case four.four a b c d _ _ _ _ _ _ a' b' c' d' _ _ _ _ _ _ =>
    have ha : a = a' := UInt8.toNat_inj.mp (by omega)
    have hb : b = b' := UInt8.toNat_inj.mp (by omega)
    have hc : c = c' := UInt8.toNat_inj.mp (by omega)
    have hd : d = d' := UInt8.toNat_inj.mp (by omega)
    rw [ha, hb, hc, hd]
  all_goals omega

theorem eq_utf8EncodeChar (h : Writes u n) {c : Char} (hc : c.toNat = n) : u = String.utf8EncodeChar c :=
  h.bytes_eq (writes_utf8EncodeChar c) hc.symm

theorem exists_char (h : Writes u n) : ∃ c : Char, c.toNat = n :=
  ⟨.ofNatAux n h.code_valid, rfl⟩

theorem ne_nil (h : Writes u n) : u ≠ [] := by
  cases h <;> exact List.cons_ne_nil _ _

theorem trails_of_first {a : UInt8} {more : List UInt8} (h : Writes (a :: more) n) (ha : 0xc2 ≤ a.toNat) :
    more.length = followers a ∧ ∀ b ∈ more, IsTrail b := by
  cases h with
  | one h => omega
  | two h hb => simpa [followers, h.2] using hb
  | three h hb hc => simp [followers, h.1, h.2, hb, hc]
  | four h hb hc hd => simp [followers, show ¬a.toNat < 0xf0 by omega, show ¬a.toNat < 0xe0 by omega, hb, hc, hd]

theorem not_broken (h : Writes u n) : ¬Broken (u ++ x) := by
  intro hbroken
  generalize hbytes : u ++ x = bytes at hbroken
  cases hbroken with
  | stray ha =>
    obtain ⟨hlow, hhigh⟩ := ha
    cases h <;> cases hbytes <;> omega
  | @truncated a trails rest ha htrails hshort hrest =>
    obtain ⟨more, rfl⟩ : ∃ more, u = a :: more := by
      obtain ⟨b, more, rfl⟩ := List.exists_cons_of_ne_nil h.ne_nil
      exact ⟨more, by rw [(List.cons.inj hbytes).1]⟩
    obtain ⟨hlength, hmore⟩ := h.trails_of_first ha.1
    have htail : more ++ x = trails ++ rest := (List.cons.inj hbytes).2
    -- As fewer bytes are there than are to follow, one that follows stands where none does.
    rcases List.append_eq_append_iff.mp htail with ⟨as, rfl, -⟩ | ⟨bs, rfl, rfl⟩
    · simp only [List.length_append] at hshort
      omega
    · obtain ⟨b, bs, rfl⟩ : ∃ b bs', bs = b :: bs' := by
        refine List.exists_cons_of_ne_nil ?_
        rintro rfl
        simp at hlength
        omega
      exact hrest b rfl (hmore b (by simp))
  | overlong₂ | overlong₃ | overlong₄ | surrogate | tooLarge | unused => cases h <;> cases hbytes <;> omega

end Writes

/-- Of the bytes that are to follow a first byte, all are there or one is missed. -/
theorem exists_trails (k : Nat) (tail : List UInt8) : ∃ trails rest, tail = trails ++ rest ∧
    (∀ b ∈ trails, IsTrail b) ∧ (trails.length = k ∨ trails.length < k ∧ ∀ b ∈ rest.head?, ¬IsTrail b) := by
  induction k generalizing tail with
  | zero => exact ⟨[], tail, rfl, nofun, .inl rfl⟩
  | succ k ih =>
    cases tail with
    | nil => exact ⟨[], [], rfl, nofun, .inr ⟨Nat.succ_pos k, nofun⟩⟩
    | cons b tail =>
      by_cases hb : IsTrail b
      · obtain ⟨trails, rest, rfl, htrails, hlength⟩ := ih tail
        refine ⟨b :: trails, rest, rfl, List.forall_mem_cons.mpr ⟨hb, htrails⟩, ?_⟩
        exact hlength.imp (congrArg Nat.succ) fun h => ⟨Nat.succ_lt_succ h.1, h.2⟩
      · refine ⟨[], b :: tail, rfl, nofun, .inr ⟨Nat.succ_pos k, ?_⟩⟩
        rintro c hc
        cases hc
        exact hb

theorem writes_or_broken_of_trails {a : UInt8} (ha : 0xc2 ≤ a.toNat ∧ a.toNat < 0xf5) {trails : List UInt8}
    (hlength : trails.length = followers a) (htrails : ∀ b ∈ trails, IsTrail b) (rest : List UInt8) :
    (∃ n, Writes (a :: trails) n) ∨ Broken (a :: (trails ++ rest)) := by
  unfold followers at hlength
  split_ifs at hlength with htwo hthree
  · obtain ⟨b, rfl⟩ := List.length_eq_one_iff.mp hlength
    exact .inl ⟨_, .two ⟨ha.1, htwo⟩ (htrails b (by simp))⟩
  · obtain ⟨b, c, rfl⟩ := List.length_eq_two.mp hlength
    have hb : IsTrail b := htrails b (by simp)
    by_cases hlow : a.toNat = 0xe0 ∧ b.toNat < 0xa0
    · exact .inr (.overlong₃ hlow.1 ⟨hb.1, hlow.2⟩)
    by_cases hpair : a.toNat = 0xed ∧ 0xa0 ≤ b.toNat
    · exact .inr (.surrogate hpair.1 ⟨hpair.2, hb.2⟩)
    exact .inl ⟨_, .three (by omega) hb (htrails c (by simp)) (by omega) (by omega)⟩
  · obtain ⟨b, c, d, rfl⟩ := List.length_eq_three.mp hlength
    have hb : IsTrail b := htrails b (by simp)
    by_cases hlow : a.toNat = 0xf0 ∧ b.toNat < 0x90
    · exact .inr (.overlong₄ hlow.1 ⟨hb.1, hlow.2⟩)
    by_cases hhigh : a.toNat = 0xf4 ∧ 0x90 ≤ b.toNat
    · exact .inr (.tooLarge hhigh.1 ⟨hhigh.2, hb.2⟩)
    exact .inl ⟨_, .four (by omega) hb (htrails c (by simp)) (htrails d (by simp)) (by omega) (by omega)⟩

theorem writes_or_broken (a : UInt8) (tail : List UInt8) :
    (∃ u rest n, a :: tail = u ++ rest ∧ Writes u n) ∨ Broken (a :: tail) := by
  by_cases hone : a.toNat < 0x80
  · exact .inl ⟨[a], tail, _, rfl, .one hone⟩
  by_cases hstray : a.toNat < 0xc0
  · exact .inr (.stray ⟨by omega, hstray⟩)
  by_cases hoverlong : a.toNat < 0xc2
  · exact .inr (.overlong₂ (by omega))
  by_cases hunused : 0xf5 ≤ a.toNat
  · exact .inr (.unused hunused)
  have ha : 0xc2 ≤ a.toNat ∧ a.toNat < 0xf5 := by omega
  obtain ⟨trails, rest, rfl, htrails, hlength | ⟨hshort, hrest⟩⟩ := exists_trails (followers a) tail
  · exact (writes_or_broken_of_trails ha hlength htrails rest).imp_left fun ⟨n, h⟩ => ⟨a :: trails, rest, n, rfl, h⟩
  · exact .inr (.truncated ha htrails hshort hrest)

theorem decodes_iff {bytes : List UInt8} {cs : List Char} :
    Decodes bytes cs ↔ bytes = cs.flatMap String.utf8EncodeChar := by
  constructor
  · intro h
    induction h with
    | nil => rfl
    | cons hc _ ih => rw [List.flatMap_cons, hc.eq_utf8EncodeChar rfl, ih]
  · rintro rfl
    induction cs with
    | nil => exact .nil
    | cons c cs ih => exact .cons (writes_utf8EncodeChar c) ih

theorem decodes_or_mangled (bytes : List UInt8) : (∃ cs, Decodes bytes cs) ∨ Mangled bytes := by
  induction hsize : bytes.length using Nat.strong_induction_on generalizing bytes with
  | _ size ih =>
    cases bytes with
    | nil => exact .inl ⟨[], .nil⟩
    | cons a tail =>
      rcases writes_or_broken a tail with ⟨u, rest, n, hbytes, hwrites⟩ | hbroken
      · obtain ⟨c, rfl⟩ := hwrites.exists_char
        have hless : rest.length < size := by
          have hpos := List.length_pos_iff.mpr hwrites.ne_nil
          rw [← hsize, hbytes, List.length_append]
          omega
        rw [hbytes]
        rcases ih rest.length hless rest rfl with ⟨cs, hcs⟩ | ⟨start, cs, broken, rfl, hstart, hbroken⟩
        · exact .inl ⟨c :: cs, .cons hwrites hcs⟩
        · exact .inr ⟨u ++ start, c :: cs, broken, by rw [List.append_assoc], .cons hwrites hstart, hbroken⟩
      · exact .inr ⟨[], [], a :: tail, rfl, .nil, hbroken⟩

theorem Broken.ne_nil {bytes : List UInt8} (h : Broken bytes) : bytes ≠ [] := by
  cases h <;> exact List.cons_ne_nil _ _

theorem Decodes.not_mangled {bytes : List UInt8} {cs : List Char} (h : Decodes bytes cs) : ¬Mangled bytes := by
  rintro ⟨start, cs', rest, rfl, hstart, hbroken⟩
  induction hstart generalizing cs with
  | nil =>
    change Decodes rest cs at h
    cases h with
    | nil => exact hbroken.ne_nil rfl
    | cons hc _ => exact hc.not_broken hbroken
  | @cons u start' c cs' hc _ ih =>
    generalize hbytes : (u ++ start') ++ rest = bytes at h
    cases h with
    | nil => exact hc.ne_nil (List.append_eq_nil_iff.mp (List.append_eq_nil_iff.mp hbytes).1).1
    | cons hc' hcs =>
      rw [List.append_assoc] at hbytes
      obtain ⟨-, -, htail⟩ := hc.eq_of_append_eq hc' hbytes
      exact ih (htail ▸ hcs)

theorem decodes_utf8Bytes (text : String) : Decodes (utf8Bytes text) text.toList := by
  rw [decodes_iff, ← utf8Bytes_ofList, String.ofList_toList]

theorem fromUTF8?_eq_some_iff {bytes : ByteArray} {text : String} :
    String.fromUTF8? bytes = some text ↔ Decodes bytes.data.toList text.toList := by
  have hutf8 : Decodes bytes.data.toList text.toList ↔ bytes = text.toUTF8 := by
    rw [decodes_iff, ← utf8Bytes_ofList, String.ofList_toList, utf8Bytes, Array.toList_inj, ByteArray.ext_iff]
  rw [hutf8]
  constructor
  · intro h
    unfold String.fromUTF8? at h
    split at h
    next => exact (Option.some.inj h) ▸ rfl
    next => cases h
  · rintro rfl
    exact dif_pos text.isValidUTF8

/-- Reading bytes as text fails for mangled bytes and no others. -/
theorem fromUTF8?_eq_none_iff {bytes : ByteArray} : String.fromUTF8? bytes = none ↔ Mangled bytes.data.toList := by
  constructor
  · intro h
    refine (decodes_or_mangled bytes.data.toList).resolve_left ?_
    rintro ⟨cs, hcs⟩
    rw [← String.toList_ofList (l := cs)] at hcs
    cases h.symm.trans (fromUTF8?_eq_some_iff.mpr hcs)
  · intro h
    rw [Option.eq_none_iff_forall_ne_some]
    intro text htext
    exact (fromUTF8?_eq_some_iff.mp htext).not_mangled h

end Utf8

end BackendAssembly
