import Mathlib.Data.List.TakeDrop
import SpecAtlas.Json.Reader

/-! Reading undoes writing. A value without reals is read back from its compact text, whatever comes
after the text, as long as that does not go on with a number. -/

namespace SpecAtlas.Json

lemma hexValue?_hexDigit {n : Nat} (h : n < 16) : hexValue? (hexDigit n) = some n := by
  have hall : ∀ k < 16, hexValue? (hexDigit k) = some k := by decide
  exact hall n h

lemma hex4?_control {n : Nat} (h : n < 0x20) :
    hex4? '0' '0' (hexDigit (n / 16)) (hexDigit (n % 16)) = some n := by
  have hzero : hexValue? '0' = some 0 := by decide
  have hhigh : hexValue? (hexDigit (n / 16)) = some (n / 16) := hexValue?_hexDigit (by omega)
  have hlow : hexValue? (hexDigit (n % 16)) = some (n % 16) := hexValue?_hexDigit (by omega)
  have hn : ((0 * 16 + 0) * 16 + n / 16) * 16 + n % 16 = n := by omega
  simp only [hex4?, hzero, hhigh, hlow, Option.bind_eq_bind, Option.bind_some, Option.pure_def, hn]

lemma ofCode_control {c : Char} (h : c.toNat < 0x20) : Piece.ofCode c.toNat = .char c := by
  have hhigh : ¬ 0xD800 ≤ c.toNat := by omega
  have hlow : ¬ 0xDC00 ≤ c.toNat := by omega
  simp [Piece.ofCode, hhigh, hlow]

lemma pieces?_mark {c e : Char} (h : unescape? e = some c) (rest : List Char) :
    pieces? ('\\' :: e :: rest) = (pieces? rest).map fun (ps, r) => (.char c :: ps, r) := by
  have hu : e ≠ 'u' := by
    rintro rfl
    cases h
  rw [pieces?, h]
  · cases pieces? rest <;> rfl
  · intro a b c d more he
    exact absurd he hu

lemma pieces?_control {c : Char} (h : c.toNat < 0x20) (rest : List Char) :
    pieces? ('\\' :: 'u' :: '0' :: '0' :: hexDigit (c.toNat / 16) :: hexDigit (c.toNat % 16) ::
      rest)
      = (pieces? rest).map fun (ps, r) => (.char c :: ps, r) := by
  rw [pieces?, hex4?_control h]
  cases pieces? rest with
  | none => rfl
  | some found => simp [ofCode_control h]

lemma pieces?_self {c : Char} (hquote : c ≠ '\x22') (hslash : c ≠ '\\') (h : ¬ c.toNat < 0x20)
    (rest : List Char) :
    pieces? (c :: rest) = (pieces? rest).map fun (ps, r) => (.char c :: ps, r) := by
  rw [pieces?]
  · simp only [beq_eq_false_iff_ne.mpr hquote, beq_eq_false_iff_ne.mpr hslash, h, decide_false,
      Bool.or_false, Bool.false_eq_true, if_false]
    cases pieces? rest <;> rfl
  · intro a b c d more he
    exact absurd he hslash
  · intro a more he
    exact absurd he hslash

lemma pieces?_escape (c : Char) (rest : List Char) :
    pieces? (escape c ++ rest) = (pieces? rest).map fun (ps, r) => (.char c :: ps, r) := by
  by_cases hquote : c = '\x22'
  · subst hquote
    exact pieces?_mark rfl rest
  by_cases hslash : c = '\\'
  · subst hslash
    exact pieces?_mark rfl rest
  by_cases h8 : c = '\x08'
  · subst h8
    exact pieces?_mark rfl rest
  by_cases h9 : c = '\x09'
  · subst h9
    exact pieces?_mark rfl rest
  by_cases ha : c = '\x0a'
  · subst ha
    exact pieces?_mark rfl rest
  by_cases hc : c = '\x0c'
  · subst hc
    exact pieces?_mark rfl rest
  by_cases hd : c = '\x0d'
  · subst hd
    exact pieces?_mark rfl rest
  by_cases hcontrol : c.toNat < 0x20
  · simpa [escape, hquote, hslash, h8, h9, ha, hc, hd, hcontrol] using pieces?_control hcontrol rest
  · simpa [escape, hquote, hslash, h8, h9, ha, hc, hd, hcontrol] using
      pieces?_self hquote hslash hcontrol rest

lemma pieces?_flatMap_escape (cs rest : List Char) :
    pieces? (cs.flatMap escape ++ '\x22' :: rest) = some (cs.map .char, rest) := by
  induction cs with
  | nil => rfl
  | cons c cs ih => rw [List.flatMap_cons, List.append_assoc, pieces?_escape, ih]; rfl

lemma joinPieces?_map_char (cs : List Char) : joinPieces? (cs.map .char) = some cs := by
  induction cs with
  | nil => rfl
  | cons c cs ih => rw [List.map_cons, joinPieces?, ih]; rfl

lemma stringBody?_escape (s : String) (rest : List Char) :
    stringBody? (s.toList.flatMap escape ++ '\x22' :: rest) = some (some s, rest) := by
  rw [stringBody?, pieces?_flatMap_escape]
  simp [joinPieces?_map_char]

def Closes (rest : List Char) : Prop := ∀ c ∈ rest.head?, c = ',' ∨ c = ']' ∨ c = '\x7d'

lemma Closes.head_cases {c : Char} {rest : List Char} (h : Closes (c :: rest)) :
    c = ',' ∨ c = ']' ∨ c = '\x7d' := h c rfl

lemma spanDigits_append {ds rest : List Char} (hds : ∀ c ∈ ds, c.isDigit = true)
    (hrest : Closes rest) : spanDigits (ds ++ rest) = (ds, rest) := by
  rw [spanDigits, List.span_eq_takeWhile_dropWhile, List.takeWhile_append_of_pos hds,
    List.dropWhile_append_of_pos hds]
  cases rest with
  | nil => simp
  | cons c rest =>
    have hc : c.isDigit = false := by
      rcases hrest.head_cases with rfl | rfl | rfl <;> decide
    simp [hc]

lemma exists_digits_eq_cons (n : Nat) : ∃ c cs, Text.digits n = c :: cs ∧ c.isDigit = true := by
  obtain ⟨c, cs, hc⟩ := List.exists_cons_of_ne_nil (Nat.toDigits_ne_nil (n := n) (b := 10))
  refine ⟨c, cs, hc, Text.isDigit_of_mem_digits (n := n) ?_⟩
  rw [Text.digits, hc]
  exact List.mem_cons_self

lemma ne_of_isDigit {c d : Char} (hc : c.isDigit = true) (hd : d.isDigit = false) : c ≠ d := by
  rintro rfl
  rw [hc] at hd
  cases hd

lemma isBlank_of_isDigit {c : Char} (h : c.isDigit = true) : isBlank c = false := by
  have hne : ∀ d : Char, d.isDigit = false → (c == d) = false := by
    intro d hd
    exact beq_eq_false_iff_ne.mpr (ne_of_isDigit h hd)
  rw [isBlank, hne _ (by decide), hne _ (by decide), hne _ (by decide), hne _ (by decide)]
  rfl

lemma digits_head?_ne_zero (n : Nat) (h : 0 < n) : (Text.digits n).head? ≠ some '0' := by
  induction n using Nat.strongRecOn with
  | ind n ih =>
    rw [Text.digits, Nat.toDigits_eq_if (by decide)]
    split_ifs with hlt
    · have hall : ∀ k < 10, 0 < k → Nat.digitChar k ≠ '0' := by decide
      exact fun he => hall n hlt h (Option.some.inj he)
    · rw [List.head?_append, Ne, Option.or_eq_some_iff]
      rintro (hhead | ⟨hnil, -⟩)
      · exact ih (n / 10) (by omega) (by omega) hhead
      · exact Nat.toDigits_ne_nil (List.head?_eq_none_iff.mp hnil)

lemma integerPart?_digits (n : Nat) {rest : List Char} (hrest : Closes rest) :
    integerPart? (Text.digits n ++ rest) = some (Text.digits n, rest) := by
  rw [integerPart?, spanDigits_append (fun c => Text.isDigit_of_mem_digits) hrest]
  split
  · rename_i h
    exact absurd (congrArg Prod.fst h) Nat.toDigits_ne_nil
  · rename_i d more _ h
    have hds : Text.digits n = '0' :: d :: more := congrArg Prod.fst h
    rcases Nat.eq_zero_or_pos n with rfl | hn
    · cases hds
    · exact absurd (by rw [hds]; rfl) (digits_head?_ne_zero n hn)
  · rename_i h
    rw [← h]

lemma fraction?_of_closes {rest : List Char} (h : Closes rest) :
    fraction? rest = some ([], rest) := by
  cases rest with
  | nil => rfl
  | cons c rest => rcases h.head_cases with rfl | rfl | rfl <;> rfl

lemma exponent?_of_closes {rest : List Char} (h : Closes rest) :
    exponent? rest = some ([], rest) := by
  cases rest with
  | nil => rfl
  | cons c rest => rcases h.head_cases with rfl | rfl | rfl <;> rfl

lemma number?_digits (negative : Bool) {n : Nat} {rest : List Char} (hrest : Closes rest)
    (hzero : negative = true → 0 < n) :
    number? negative (Text.digits n ++ rest)
      = some (.int (if negative then -(n : Int) else n), rest) := by
  have hsign : negative = true → ¬ n = 0 := fun h => Nat.ne_of_gt (hzero h)
  simpa [number?, integerPart?_digits n hrest, fraction?_of_closes hrest,
    exponent?_of_closes hrest] using hsign

namespace Value

mutual

def Plain : Value → Prop
  | array items => PlainAll items
  | object fields => PlainFields fields
  | real _ | unpaired => False
  | null | bool _ | int _ | string _ => True

def PlainAll : List Value → Prop
  | [] => True
  | v :: vs => v.Plain ∧ PlainAll vs

def PlainFields : List (String × Value) → Prop
  | [] => True
  | (_, v) :: fs => v.Plain ∧ PlainFields fs

end

lemma exists_chars_eq_cons {v : Value} (h : v.Plain) :
    ∃ c cs, v.chars = c :: cs ∧ isBlank c = false ∧ c ≠ ']' := by
  cases v with
  | null => exact ⟨'n', _, rfl, by decide, by decide⟩
  | bool b => cases b <;> exact ⟨_, _, rfl, by decide, by decide⟩
  | int i =>
    cases i with
    | ofNat n =>
      obtain ⟨c, cs, hc, hdigit⟩ := exists_digits_eq_cons n
      exact ⟨c, cs, hc, isBlank_of_isDigit hdigit, ne_of_isDigit hdigit (by decide)⟩
    | negSucc n => exact ⟨'-', _, rfl, by decide, by decide⟩
  | real text => cases h
  | string s => exact ⟨'\x22', _, rfl, by decide, by decide⟩
  | unpaired => cases h
  | array items => exact ⟨'[', _, rfl, by decide, by decide⟩
  | object fields => exact ⟨'\x7b', _, rfl, by decide, by decide⟩

lemma charsAll_cons (v w : Value) (vs : List Value) :
    charsAll (v :: w :: vs) = v.chars ++ ',' :: charsAll (w :: vs) := rfl

lemma charsFields_cons (k : String) (v : Value) (g : String × Value) (fs : List (String × Value)) :
    charsFields ((k, v) :: g :: fs) = literal k ++ ':' :: v.chars ++ ',' :: charsFields (g :: fs) :=
  rfl

lemma exists_charsAll_eq_cons {v : Value} (vs : List Value) (h : v.Plain) :
    ∃ c cs, charsAll (v :: vs) = c :: cs ∧ isBlank c = false ∧ c ≠ ']' := by
  obtain ⟨c, cs, hc, hblank, hclose⟩ := exists_chars_eq_cons h
  cases vs with
  | nil => exact ⟨c, cs, hc, hblank, hclose⟩
  | cons w vs =>
    refine ⟨c, cs ++ ',' :: charsAll (w :: vs), ?_, hblank, hclose⟩
    rw [charsAll_cons, hc]
    rfl

lemma exists_charsFields_eq_cons (k : String) (v : Value) (fs : List (String × Value)) :
    ∃ cs, charsFields ((k, v) :: fs) = '\x22' :: cs := by
  cases fs with
  | nil => exact ⟨_, rfl⟩
  | cons f fs => exact ⟨_, rfl⟩

end Value

lemma skipBlanks_cons {c : Char} (h : isBlank c = false) (rest : List Char) :
    skipBlanks (c :: rest) = c :: rest := by
  simp [skipBlanks, h]

lemma word?_append (word : String) (rest : List Char) :
    word? word (word.toList ++ rest) = some rest := by
  have hprefix : word.toList.isPrefixOf (word.toList ++ rest) = true := by simp
  rw [word?, if_pos hprefix, ← String.length_toList, List.drop_left]

lemma value?_digits (n k : Nat) {rest : List Char} (hrest : Closes rest) :
    value? (n + 1) (Text.digits k ++ rest) = some (.int k, rest) := by
  obtain ⟨c, cs, hc, hdigit⟩ := exists_digits_eq_cons k
  have hne : ∀ d : Char, d.isDigit = false → (c == d) = false := by
    intro d hd
    exact beq_eq_false_iff_ne.mpr (ne_of_isDigit hdigit hd)
  have hnumber := number?_digits false (n := k) hrest (by simp)
  rw [hc, List.cons_append] at hnumber ⊢
  rw [value?, skipBlanks_cons (isBlank_of_isDigit hdigit)]
  simp only [hne '[' (by decide), hne '\x7b' (by decide), hne '\x22' (by decide),
    hne '-' (by decide), hdigit, hnumber, Bool.false_eq_true, if_false, if_true]

lemma value?_literal (n : Nat) (s : String) (rest : List Char) :
    value? (n + 1) (literal s ++ rest) = some (.string s, rest) := by
  have hbody := stringBody?_escape s rest
  have hstep : value? (n + 1) ('\x22' :: (s.toList.flatMap escape ++ '\x22' :: rest))
      = (stringBody? (s.toList.flatMap escape ++ '\x22' :: rest)).map fun p =>
        ((p.1.map Value.string).getD .unpaired, p.2) := by
    rw [value?]
    rfl
  rw [literal, List.cons_append, List.cons_append, List.append_assoc, List.singleton_append, hstep,
    hbody]
  rfl

lemma value?_items {n : Nat} {c : Char} {s rest : List Char} {vs : List Value}
    (hblank : isBlank c = false) (hc : c ≠ ']') (h : items? n (c :: s) = some (vs, rest)) :
    value? (n + 1) ('[' :: c :: s) = some (.array vs, rest) := by
  rw [value?, skipBlanks_cons (by decide)]
  simp only [skipBlanks_cons hblank, beq_self_eq_true, if_true]
  split
  · rename_i heq
    cases heq
    exact absurd rfl hc
  · rw [h]
    rfl

lemma items?_last {n : Nat} {s rest : List Char} {v : Value}
    (h : value? n s = some (v, ']' :: rest)) : items? (n + 1) s = some ([v], rest) := by
  rw [items?, h]
  rfl

lemma items?_more {n : Nat} {s mid rest : List Char} {v : Value} {vs : List Value}
    (h : value? n s = some (v, ',' :: mid)) (hvs : items? n mid = some (vs, rest)) :
    items? (n + 1) s = some (v :: vs, rest) := by
  have hstep : items? (n + 1) s = (items? n mid).map fun p => (v :: p.1, p.2) := by
    rw [items?, h]
    rfl
  rw [hstep, hvs]
  rfl

lemma fields?_last {n : Nat} {k : String} {s rest : List Char} {v : Value}
    (h : value? n s = some (v, '\x7d' :: rest)) :
    fields? (n + 1) (literal k ++ ':' :: s) = some ([(some k, v)], rest) := by
  have hbody := stringBody?_escape k (':' :: s)
  rw [literal, List.cons_append, List.cons_append, List.append_assoc, fields?,
    skipBlanks_cons (by decide)]
  simp only [List.singleton_append, hbody, Option.bind_eq_bind, Option.bind_some,
    skipBlanks_cons (show isBlank ':' = false by decide), h,
    skipBlanks_cons (show isBlank '\x7d' = false by decide)]

lemma fields?_more {n : Nat} {k : String} {s mid rest : List Char} {v : Value}
    {fs : List (Option String × Value)} (h : value? n s = some (v, ',' :: mid))
    (hfs : fields? n mid = some (fs, rest)) :
    fields? (n + 1) (literal k ++ ':' :: s) = some ((some k, v) :: fs, rest) := by
  have hbody := stringBody?_escape k (':' :: s)
  rw [literal, List.cons_append, List.cons_append, List.append_assoc, fields?,
    skipBlanks_cons (by decide)]
  simp only [List.singleton_append, hbody, Option.bind_eq_bind, Option.bind_some,
    skipBlanks_cons (show isBlank ':' = false by decide), h,
    skipBlanks_cons (show isBlank ',' = false by decide), hfs, Option.map_some]

lemma mapM_map_some (fs : List (String × Value)) :
    (fs.map fun (k, v) => (some k, v)).mapM
      (fun ((key, v) : Option String × Value) => key.map (·, v)) = some fs := by
  induction fs with
  | nil => rfl
  | cons f fs ih => simp [ih]

lemma ofFields_map_some (fs : List (String × Value)) :
    ofFields (fs.map fun (k, v) => (some k, v)) = .object fs := by
  rw [ofFields, mapM_map_some]

lemma value?_fields {n : Nat} {s rest : List Char} {fs : List (String × Value)}
    (h : fields? n ('\x22' :: s) = some (fs.map fun (k, v) => (some k, v), rest)) :
    value? (n + 1) ('\x7b' :: '\x22' :: s) = some (.object fs, rest) := by
  have hstep : value? (n + 1) ('\x7b' :: '\x22' :: s)
      = (fields? n ('\x22' :: s)).map fun p => (ofFields p.1, p.2) := by
    rw [value?]
    rfl
  rw [hstep, h, ← ofFields_map_some fs]
  rfl

mutual

theorem value?_chars : (v : Value) → v.Plain → ∀ {n : Nat} {rest : List Char},
    2 * v.chars.length ≤ n → Closes rest → value? n (v.chars ++ rest) = some (v, rest)
  | .null, _, n + 1, rest, _, _ => by
    have hstep : value? (n + 1) ('n' :: ("ull".toList ++ rest))
        = (word? "ull" ("ull".toList ++ rest)).map fun rest => (.null, rest) := by
      rw [value?]
      rfl
    rw [word?_append] at hstep
    exact hstep
  | .bool true, _, n + 1, rest, _, _ => by
    have hstep : value? (n + 1) ('t' :: ("rue".toList ++ rest))
        = (word? "rue" ("rue".toList ++ rest)).map fun rest => (.bool true, rest) := by
      rw [value?]
      rfl
    rw [word?_append] at hstep
    exact hstep
  | .bool false, _, n + 1, rest, _, _ => by
    have hstep : value? (n + 1) ('f' :: ("alse".toList ++ rest))
        = (word? "alse" ("alse".toList ++ rest)).map fun rest => (.bool false, rest) := by
      rw [value?]
      rfl
    rw [word?_append] at hstep
    exact hstep
  | v, h, 0, rest, hn, _ => by
    -- no value is written as nothing
    obtain ⟨c, cs, hc, -, -⟩ := Value.exists_chars_eq_cons h
    rw [hc] at hn
    simp at hn
  | .int (.ofNat k), _, n + 1, rest, _, hrest => value?_digits n k hrest
  | .int (.negSucc k), h, n + 1, rest, _, hrest => by
    have hstep : value? (n + 1) ('-' :: (Text.digits (k + 1) ++ rest))
        = number? true (Text.digits (k + 1) ++ rest) := by
      rw [value?]
      rfl
    exact hstep.trans (number?_digits true hrest fun _ => Nat.succ_pos k)
  | .string s, _, n + 1, rest, _, _ => value?_literal n s rest
  | .array [], _, n + 1, rest, _, _ => by
    have hstep : value? (n + 1) ('[' :: ']' :: rest) = some (.array [], rest) := by
      rw [value?]
      rfl
    exact hstep
  | .array (v :: vs), h, n + 1, rest, hn, _ => by
    rw [Value.Plain] at h
    have hchars : (Value.array (v :: vs)).chars = '[' :: Value.charsAll (v :: vs) ++ [']'] := rfl
    simp only [hchars, List.cons_append, List.append_assoc, List.length_cons,
      List.length_append] at hn ⊢
    have hitems : items? n (Value.charsAll (v :: vs) ++ ']' :: rest) = some (v :: vs, rest) :=
      items?_charsAll v vs h (by simp at hn; omega)
    obtain ⟨c, cs, hc, hblank, hclose⟩ := Value.exists_charsAll_eq_cons vs h.1
    rw [hc, List.cons_append] at hitems ⊢
    exact value?_items hblank hclose hitems
  | .object [], _, n + 1, rest, _, _ => by
    have hstep : value? (n + 1) ('\x7b' :: '\x7d' :: rest) = some (.object [], rest) := by
      rw [value?]
      rfl
    exact hstep
  | .object ((k, v) :: fs), h, n + 1, rest, hn, _ => by
    rw [Value.Plain] at h
    have hchars : (Value.object ((k, v) :: fs)).chars
        = '\x7b' :: Value.charsFields ((k, v) :: fs) ++ ['\x7d'] := rfl
    simp only [hchars, List.cons_append, List.append_assoc, List.length_cons,
      List.length_append] at hn ⊢
    have hfields : fields? n (Value.charsFields ((k, v) :: fs) ++ '\x7d' :: rest)
        = some (((k, v) :: fs).map fun (k, v) => (some k, v), rest) :=
      fields?_charsFields k v fs h (by simp at hn; omega)
    obtain ⟨cs, hcs⟩ := Value.exists_charsFields_eq_cons k v fs
    rw [hcs, List.cons_append] at hfields ⊢
    exact value?_fields hfields

theorem items?_charsAll : (v : Value) → (vs : List Value) → Value.PlainAll (v :: vs) →
    ∀ {n : Nat} {rest : List Char}, 2 * (Value.charsAll (v :: vs)).length + 1 ≤ n →
      items? n (Value.charsAll (v :: vs) ++ ']' :: rest) = some (v :: vs, rest)
  | v, [], h, n + 1, rest, hn => by
    replace hn : 2 * v.chars.length + 1 ≤ n + 1 := hn
    exact items?_last (value?_chars v h.1 (by omega) (by simp [Closes]))
  | v, w :: vs, h, n + 1, rest, hn => by
    simp only [Value.charsAll_cons, List.length_append, List.length_cons, List.append_assoc,
      List.cons_append] at hn ⊢
    have hvalue : value? n (v.chars ++ ',' :: (Value.charsAll (w :: vs) ++ ']' :: rest))
        = some (v, ',' :: (Value.charsAll (w :: vs) ++ ']' :: rest)) :=
      value?_chars v h.1 (by omega) (by simp [Closes])
    exact items?_more hvalue (items?_charsAll w vs h.2 (by omega))

theorem fields?_charsFields : (k : String) → (v : Value) → (fs : List (String × Value)) →
    Value.PlainFields ((k, v) :: fs) →
    ∀ {n : Nat} {rest : List Char}, 2 * (Value.charsFields ((k, v) :: fs)).length + 1 ≤ n →
      fields? n (Value.charsFields ((k, v) :: fs) ++ '\x7d' :: rest)
        = some (((k, v) :: fs).map fun (k, v) => (some k, v), rest)
  | k, v, [], h, n + 1, rest, hn => by
    have hchars : Value.charsFields [(k, v)] = literal k ++ ':' :: v.chars := rfl
    simp only [hchars, List.length_append, List.length_cons, List.append_assoc,
      List.cons_append] at hn ⊢
    exact fields?_last (value?_chars v h.1 (by omega) (by simp [Closes]))
  | k, v, (l, w) :: fs, h, n + 1, rest, hn => by
    simp only [Value.charsFields_cons, List.length_append, List.length_cons, List.append_assoc,
      List.cons_append] at hn ⊢
    have hvalue :
        value? n (v.chars ++ ',' :: (Value.charsFields ((l, w) :: fs) ++ '\x7d' :: rest))
          = some (v, ',' :: (Value.charsFields ((l, w) :: fs) ++ '\x7d' :: rest)) :=
      value?_chars v h.1 (by omega) (by simp [Closes])
    exact fields?_more hvalue (fields?_charsFields l w fs h.2 (by omega))

end

theorem parse?_render {v : Value} (h : v.Plain) : parse? v.render = some v := by
  have hvalue : value? (2 * v.chars.length + 2) (v.chars ++ []) = some (v, []) :=
    value?_chars v h (by omega) (by simp [Closes])
  have hchars : v.render.toList = v.chars := String.toList_ofList
  rw [List.append_nil] at hvalue
  rw [parse?, hchars, hvalue]
  rfl

end SpecAtlas.Json
