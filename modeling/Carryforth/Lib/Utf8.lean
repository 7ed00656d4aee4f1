import Carryforth.Lib.Lines

/-!
# Texts and their encodings

A byte below 128 of an encoded text is a character of its own, so an encoded text can be cut at such
a byte and its parts are encoded texts again (`exists_of_utf8_eq_append`).  The order of texts is
the order of their encodings (`utf8_lt_utf8`).
-/

namespace Text

open Lines

theorem utf8_eq_flatMap (s : String) : utf8 s = s.toList.flatMap String.utf8EncodeChar := by
  unfold utf8
  conv_lhs => rw [← String.ofList_toList (s := s)]
  rw [String.toByteArray_ofList, List.utf8Encode, List.data_toByteArray]

theorem utf8EncodeChar_of_ascii {c : Char} (ascii : c.toNat ≤ 127) :
    String.utf8EncodeChar c = [UInt8.ofNat c.toNat] :=
  if_pos ascii

theorem ascii_lt_of_mem_utf8EncodeChar {c : Char} (long : 127 < c.toNat) {b : UInt8}
    (mem : b ∈ String.utf8EncodeChar c) : 127 < b.toNat := by
  have long' : 127 < c.val.toNat := long
  unfold String.utf8EncodeChar at mem
  dsimp only at mem
  rw [if_neg (by omega)] at mem
  split_ifs at mem
  all_goals
    simp only [List.mem_cons, List.not_mem_nil, or_false] at mem
    rcases mem with rfl | rfl | rfl | rfl <;>
    · rw [UInt8.toNat_ofNat']
      omega

theorem mem_utf8_of_ascii {s : String} {b : UInt8} (ascii : b.toNat ≤ 127) :
    b ∈ utf8 s ↔ Char.ofNat b.toNat ∈ s.toList := by
  have value : (Char.ofNat b.toNat).toNat = b.toNat := by
    rw [Char.toNat_ofNat, if_pos (.inl (by omega))]
  rw [utf8_eq_flatMap, List.mem_flatMap]
  constructor
  · rintro ⟨c, mem, byte⟩
    have short : c.toNat ≤ 127 := by
      by_contra long
      have := ascii_lt_of_mem_utf8EncodeChar (Nat.lt_of_not_le long) byte
      omega
    rw [utf8EncodeChar_of_ascii short, List.mem_singleton] at byte
    have same : b.toNat = c.toNat := by
      rw [byte, UInt8.toNat_ofNat']
      omega
    rwa [same, Char.ofNat_toNat]
  · intro mem
    refine ⟨_, mem, ?_⟩
    rw [utf8EncodeChar_of_ascii (by rw [value]; exact ascii), value, UInt8.ofNat_toNat]
    exact List.mem_singleton_self b

theorem exists_of_utf8_eq_append {s : String} {a c : List UInt8} {b : UInt8}
    (whole : utf8 s = a ++ b :: c) (ascii : b.toNat ≤ 127) :
    ∃ t u, a = utf8 t ∧ c = utf8 u := by
  have cut : ∀ (cs : List Char) (a : List UInt8),
      cs.flatMap String.utf8EncodeChar = a ++ b :: c →
        ∃ t u : List Char, a = t.flatMap String.utf8EncodeChar ∧
          c = u.flatMap String.utf8EncodeChar := by
    intro cs
    induction cs with
    | nil =>
      intro a whole
      cases a <;> cases whole
    | cons d cs ih =>
      intro a whole
      rw [List.flatMap_cons, List.append_eq_append_iff] at whole
      rcases whole with ⟨a', rfl, rest⟩ | ⟨enc, first, rest⟩
      · obtain ⟨t, u, left, right⟩ := ih a' rest
        exact ⟨d :: t, u, by rw [List.flatMap_cons, left], right⟩
      · cases enc with
        | nil =>
          obtain ⟨t, u, left, right⟩ := ih [] rest.symm
          rw [List.append_nil] at first
          exact ⟨[d], u, by simp [first], right⟩
        | cons b' enc =>
          -- the byte is inside the encoding of a character, which is then this byte
          obtain ⟨rfl, after⟩ := List.cons.inj rest
          have byte : b ∈ String.utf8EncodeChar d := by
            rw [first]
            exact List.mem_append_right _ List.mem_cons_self
          have short : d.toNat ≤ 127 := by
            by_contra long
            have := ascii_lt_of_mem_utf8EncodeChar (Nat.lt_of_not_le long) byte
            omega
          rw [utf8EncodeChar_of_ascii short] at first
          cases a with
          | nil =>
            obtain ⟨-, rfl⟩ := List.cons.inj first
            exact ⟨[], cs, rfl, after⟩
          | cons x a => exact absurd (List.cons.inj first).2 (by simp)
  rw [utf8_eq_flatMap] at whole
  obtain ⟨t, u, left, right⟩ := cut s.toList a whole
  refine ⟨String.ofList t, String.ofList u, ?_, ?_⟩
  · rw [utf8_eq_flatMap, String.toList_ofList, left]
  · rw [utf8_eq_flatMap, String.toList_ofList, right]

theorem mapM_ofUtf8 (texts : List String) : (texts.map utf8).mapM ofUtf8 = some texts := by
  induction texts with
  | nil => rfl
  | cons s texts ih => rw [List.map_cons, List.mapM_cons, ofUtf8_utf8, ih]; rfl

/-! ## Order -/

/-- A smaller character has the smaller encoding, whatever follows. -/
theorem utf8EncodeChar_append_lt {c d : Char} (smaller : c < d) (x y : List UInt8) :
    String.utf8EncodeChar c ++ x < String.utf8EncodeChar d ++ y := by
  have below : c.val.toNat < d.val.toNat := UInt32.lt_iff_toNat_lt.1 smaller
  have top : d.val.toNat < 0x110000 := by
    have valid := d.valid
    unfold UInt32.isValidChar Nat.isValidChar at valid
    omega
  unfold String.utf8EncodeChar
  dsimp only
  generalize c.val.toNat = v at below ⊢
  generalize d.val.toNat = w at below top ⊢
  -- the bytes are digits to the base 64
  have digits : ∀ n : Nat, n / 4096 = n / 64 / 64 ∧ n / 262144 = n / 64 / 64 / 64 := by
    intro n
    rw [Nat.div_div_eq_div_mul, Nat.div_div_eq_div_mul]
    exact ⟨rfl, rfl⟩
  have small : ∀ n k m : Nat, k + m ≤ 256 → 0 < k → (n % k + m) % 2 ^ 8 = n % k + m := by
    intro n k m fits positive
    have := Nat.mod_lt n positive
    exact Nat.mod_eq_of_lt (by omega)
  split_ifs
  all_goals
    simp (disch := omega) only [List.cons_append, List.nil_append, List.cons_lt_cons_iff,
      UInt8.lt_iff_toNat_lt, ← UInt8.toNat_inj, UInt8.toNat_ofNat', small, (digits _).1, (digits _).2]
    omega

theorem utf8_lt_utf8 {s t : String} : utf8 s < utf8 t ↔ s < t := by
  have step : ∀ cs ds : List Char, cs < ds →
      cs.flatMap String.utf8EncodeChar < ds.flatMap String.utf8EncodeChar := by
    intro cs
    induction cs with
    | nil =>
      intro ds smaller
      cases ds with
      | nil => exact absurd smaller (lt_irrefl _)
      | cons d ds =>
        cases bytes : String.utf8EncodeChar d with
        | nil => exact absurd bytes String.utf8EncodeChar_ne_nil
        | cons b bs =>
          rw [List.flatMap_cons, bytes]
          exact List.nil_lt_cons _ _
    | cons c cs ih =>
      intro ds smaller
      cases ds with
      | nil => exact absurd smaller (by simp)
      | cons d ds =>
        rw [List.flatMap_cons, List.flatMap_cons]
        rcases List.cons_lt_cons_iff.1 smaller with first | ⟨rfl, rest⟩
        · exact utf8EncodeChar_append_lt first _ _
        · exact List.append_left_lt (ih ds rest)
  have mono : ∀ {s t : String}, s < t → utf8 s < utf8 t := by
    intro s t smaller
    rw [utf8_eq_flatMap, utf8_eq_flatMap]
    exact step _ _ (String.lt_iff.1 smaller)
  refine ⟨fun bytes => ?_, mono⟩
  rcases lt_trichotomy s t with smaller | rfl | larger
  · exact smaller
  · exact absurd bytes (List.lt_irrefl _)
  · exact absurd (List.lt_trans bytes (mono larger)) (List.lt_irrefl _)

end Text
