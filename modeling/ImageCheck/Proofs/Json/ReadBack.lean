/-
# JSON reads back from its text

The compact text of a value reads back as that value (`read?_compact`) and holds no
control character (`printable_compact`), as long as every part of the value has a text
of its own (`Proper`): a value that is well-formed but holds something else is written
as `null`.

Cutting a text into tokens and building a value from them are two passes. `readFrom`
is both at once, from any point of the second pass, and each piece of text has one
lemma that says which token it gives and that the reading goes on behind it:
`readFrom_punctuation`, `readFrom_quote`, `readFrom_word`. What remains is an induction
over the value, with what is still open around it left general.
-/

import ImageCheck.Json.Reader
import ImageCheck.Json.Writer
import ImageCheck.Proofs.Number.Digits

namespace ImageCheck

namespace Decimal

/-- No digits but those of zero begin with a zero. -/
theorem head?_digitsOf_ne_zero {n : Nat} (h : 0 < n) : (digitsOf n).head? ≠ some '0' := by
  induction n using Nat.strongRecOn with
  | ind n ih =>
    unfold digitsOf
    by_cases hsmall : n < 10
    · have hdigit : ∀ d < 10, 0 < d → some d.digitChar ≠ some '0' := by decide
      rw [Nat.toDigits_of_lt_base hsmall]
      exact hdigit n hsmall h
    · have hhead := ih (n / 10) (by omega) (by omega)
      obtain ⟨ch, more, hcs⟩ := List.exists_cons_of_ne_nil
        (show Nat.toDigits 10 (n / 10) ≠ [] from Nat.toDigits_ne_nil)
      rw [digitsOf, hcs] at hhead
      rw [Nat.toDigits_of_base_le (by decide) (by omega), hcs]
      exact hhead

end Decimal

namespace Json

/-- A value whose every part has a text of its own. -/
inductive Proper : Json → Prop
  | null : Proper null
  | bool (b : Bool) : Proper (bool b)
  | integer (n : Int) : Proper (integer n)
  | string (s : String) : Proper (string s)
  | array {items : List Json} (h : ∀ item ∈ items, Proper item) : Proper (array items)
  | object {fields : List (String × Json)} (h : ∀ field ∈ fields, Proper field.2) :
      Proper (object fields)

/-! ### Quoted texts -/

/-- The characters read so far, with no half of a surrogate pair among them. -/
def Collected.ofChars (cs : List Char) : Collected := ⟨some cs.reverse, none⟩

/-- A control character is named by its number. -/
theorem hexNumber?_control : ∀ n < 32,
    Text.hexNumber? ['0', '0', hexDigit (n / 16), hexDigit (n % 16)] = some n := by
  decide

/-- A character is read back from its escaped form. -/
theorem scanText_escapeChar (cs : List Char) (c : Char) (rest : List Char) :
    scanText (.ofChars cs) (escapeChar c ++ rest) = scanText (.ofChars (cs ++ [c])) rest := by
  have hpush (d : Char) : (Collected.ofChars cs).push d = .ofChars (cs ++ [d]) := by
    simp [Collected.push, Collected.ofChars]
  by_cases hshort : c = '"' ∨ c = '\\' ∨ c = '\x08' ∨ c = '\x0c' ∨ c = '\n' ∨ c = '\r' ∨ c = '\t'
  · rcases hshort with rfl | rfl | rfl | rfl | rfl | rfl | rfl <;>
      simp [escapeChar, scanText, escaped?, hpush]
  · simp only [not_or] at hshort
    obtain ⟨hquote, hslash, hb, hf, hn, hr, ht⟩ := hshort
    simp only [escapeChar, if_neg hquote, if_neg hslash, if_neg hb, if_neg hf, if_neg hn, if_neg hr,
      if_neg ht]
    by_cases hcontrol : c.toNat < 32
    · have hunit : (Collected.ofChars cs).pushUnit c.toNat = .ofChars (cs ++ [c]) := by
        have hhigh : isHighSurrogate c.toNat = false := by
          simp only [isHighSurrogate, Bool.and_eq_false_iff, decide_eq_false_iff_not]
          omega
        have hlow : isLowSurrogate c.toNat = false := by
          simp only [isLowSurrogate, Bool.and_eq_false_iff, decide_eq_false_iff_not]
          omega
        rw [← hpush c]
        simp [Collected.pushUnit, Collected.ofChars, hhigh, hlow, Char.ofNat_toNat]
      rw [if_pos hcontrol]
      simp only [List.cons_append, List.nil_append, scanText, hexNumber?_control _ hcontrol, hunit]
    · rw [if_neg hcontrol, List.singleton_append, scanText]
      · rw [if_neg hcontrol, hpush]
      all_goals simp_all

/-- A text is read back from its quoted form. -/
theorem scanText_quote (s : String) (rest : List Char) :
    scanText .empty (s.toList.flatMap escapeChar ++ '"' :: rest) = some (some s, rest) := by
  have hgeneral (cs ds : List Char) :
      scanText (.ofChars cs) (ds.flatMap escapeChar ++ '"' :: rest) =
        some (some (String.ofList (cs ++ ds)), rest) := by
    induction ds generalizing cs with
    | nil => simp [scanText, Collected.finish, Collected.ofChars]
    | cons d ds ih =>
      rw [List.flatMap_cons, List.append_assoc, scanText_escapeChar, ih]
      simp
  have hread := hgeneral [] s.toList
  rwa [List.nil_append, String.ofList_toList] at hread

/-! ### Words -/

/-- The digits of a number are a number. -/
theorem magnitude?_digitsOf (negative : Bool) (n : Nat) (h : negative = true → 0 < n) :
    magnitude? negative (Decimal.digitsOf n) =
      some (integer (if negative then -(n : Int) else n)) := by
  have hdigits := Decimal.allDigits_iff.1 (Decimal.allDigits_digitsOf n)
  have htake : (Decimal.digitsOf n).takeWhile Char.isDigit = Decimal.digitsOf n :=
    List.takeWhile_eq_self_iff.2 hdigits
  have hdrop : (Decimal.digitsOf n).dropWhile Char.isDigit = [] :=
    List.dropWhile_eq_nil_iff.2 hdigits
  have hne : Decimal.digitsOf n ≠ [] := Nat.toDigits_ne_nil
  -- a zero stands before no other digit: zero itself has one digit
  have hzero : ((Decimal.digitsOf n).head? = some '0' && 1 < (Decimal.digitsOf n).length) =
      false := by
    rcases Nat.eq_zero_or_pos n with rfl | hpos
    · decide
    · simp [Decimal.head?_digitsOf_ne_zero hpos]
  have hsign : (negative && n = 0) = false := by
    cases negative with
    | false => rfl
    | true => simpa using Nat.pos_iff_ne_zero.1 (h rfl)
  unfold magnitude?
  simp only [htake, hdrop, Decimal.natOfDigits_digitsOf]
  simp [hne, hzero, hsign, isNumberTail]

/-- The text of a whole number is the word of that number. -/
theorem word?_integerText (n : Int) : word? (integerText n) = some (integer n) := by
  cases n with
  | ofNat n =>
    have hmagnitude := magnitude?_digitsOf false n (by simp)
    obtain ⟨ch, more, hcs⟩ := List.exists_cons_of_ne_nil
      (show Decimal.digitsOf n ≠ [] from Nat.toDigits_ne_nil)
    have hch : ch.isDigit = true :=
      Decimal.allDigits_iff.1 (Decimal.allDigits_digitsOf n) ch (by simp [hcs])
    have hminus : ch ≠ '-' := Decimal.ne_of_isDigit hch (by decide)
    have hletters : ch ≠ 'n' ∧ ch ≠ 't' ∧ ch ≠ 'f' :=
      ⟨Decimal.ne_of_isDigit hch (by decide), Decimal.ne_of_isDigit hch (by decide),
        Decimal.ne_of_isDigit hch (by decide)⟩
    simp only [integerText]
    rw [hcs] at hmagnitude ⊢
    unfold word?
    simpa [hminus, hletters] using hmagnitude
  | negSucc n =>
    have hword : word? (integerText (.negSucc n)) = magnitude? true (Decimal.digitsOf (n + 1)) := by
      simp [integerText, word?]
    rw [hword]
    exact magnitude?_digitsOf true (n + 1) fun _ => Nat.succ_pos n

/-- The characters that belong to no word: blanks, the quote and punctuation. -/
def wordEnds : List Char := [' ', '\t', '\n', '\r', '"', '[', ']', '\x7b', '\x7d', ',', ':']

/-- A character goes on with a word unless it is listed as an end of words. -/
theorem inWord_of_not_mem {ch : Char} (h : ch ∉ wordEnds) : inWord ch = true := by
  simp only [wordEnds, List.mem_cons, List.not_mem_nil, or_false, not_or] at h
  simp [inWord, isBlank, punctuation?, h]

/-- A digit goes on with a word. -/
theorem inWord_of_isDigit {ch : Char} (h : ch.isDigit = true) : inWord ch = true := by
  refine inWord_of_not_mem fun hmem => ?_
  have hnone : wordEnds.all (fun d => !d.isDigit) = true := by decide
  simpa [h] using List.all_eq_true.1 hnone ch hmem

/-- The text of a whole number is a single word. -/
theorem integerText_inWord (n : Int) : ∀ ch ∈ integerText n, inWord ch = true := by
  have hdigits (m : Nat) : ∀ ch ∈ Decimal.digitsOf m, inWord ch = true := fun ch hch =>
    inWord_of_isDigit (Decimal.allDigits_iff.1 (Decimal.allDigits_digitsOf m) ch hch)
  cases n with
  | ofNat n => exact hdigits n
  | negSucc n =>
    intro ch hch
    rcases List.mem_cons.1 hch with rfl | hch
    · decide
    · exact hdigits _ ch hch

/-- The text of a whole number is not empty. -/
theorem integerText_ne_nil (n : Int) : integerText n ≠ [] := by
  cases n with
  | ofNat n => exact Nat.toDigits_ne_nil
  | negSucc n => exact List.cons_ne_nil _ _

/-! ### Pieces of text -/

/-- What the tokens of a text make of a reading that has come to `p`. -/
def readFrom (p : Progress) (cs : List Char) : Option Progress :=
  (tokens? cs).bind fun ts => ts.foldlM step p

/-- Tokens that were read before stand before the others. -/
theorem tokensFrom_eq (read : List Token) (cs : List Char) :
    tokensFrom read cs = (tokensFrom [] cs).map (read.reverse ++ ·) := by
  induction hn : cs.length using Nat.strongRecOn generalizing read cs with
  | ind n ih =>
    subst hn
    -- one more token goes behind those read before and before those still to come
    have hcons (t : Token) (rest : List Char) (hlt : rest.length < cs.length) :
        tokensFrom (t :: read) rest = (tokensFrom [t] rest).map (read.reverse ++ ·) := by
      rw [ih _ hlt (t :: read) rest rfl, ih _ hlt [t] rest rfl, Option.map_map]
      congr 1
      funext ts
      simp
    cases cs with
    | nil => simp [tokensFrom]
    | cons c rest =>
      rw [tokensFrom, tokensFrom]
      split
      · exact ih _ (by simp) read rest rfl
      · split
        · split
          · rfl
          · rename_i hscan
            have := length_scanText_lt hscan
            exact hcons _ _ (by simp only [List.length_cons]; omega)
        · split
          · exact hcons _ _ (by simp)
          · split
            · rfl
            · have := (List.dropWhile_suffix inWord (l := rest)).length_le
              exact hcons _ _ (by simp only [List.length_cons]; omega)

/-- The first token of a text takes the reading one step on. -/
theorem readFrom_of_tokens? {t : Token} {cs rest : List Char}
    (h : tokens? cs = tokensFrom [t] rest) (p : Progress) :
    readFrom p cs = (step p t).bind fun q => readFrom q rest := by
  unfold readFrom
  rw [h, tokensFrom_eq]
  show _ = (step p t).bind fun q => (tokensFrom [] rest).bind fun ts => ts.foldlM step q
  cases tokensFrom [] rest with
  | none => cases step p t <;> rfl
  | some ts => cases hstep : step p t <;> simp [List.foldlM_cons, hstep]

/-- A bracket, a comma or a colon is one token, and the reading goes on behind it. -/
theorem readFrom_punctuation {c : Char} {t : Token} (h : punctuation? c = some t) (p : Progress)
    (rest : List Char) : readFrom p (c :: rest) = (step p t).bind fun q => readFrom q rest := by
  have hother : isBlank c = false ∧ c ≠ '"' := by
    unfold punctuation? at h
    split_ifs at h <;>
      · rename_i hc
        subst hc
        decide
  refine readFrom_of_tokens? ?_ p
  rw [tokens?, tokensFrom, if_neg (by simp [hother.1]), if_neg hother.2]
  simp only [h]

/-- So is a quoted text, which gives back the text. -/
theorem readFrom_quote (p : Progress) (s : String) (rest : List Char) :
    readFrom p (quote s ++ rest) = (step p (.text (some s))).bind fun q => readFrom q rest := by
  refine readFrom_of_tokens? ?_ p
  have hquote : quote s ++ rest = '"' :: (s.toList.flatMap escapeChar ++ '"' :: rest) := by
    simp [quote]
  rw [hquote, tokens?, tokensFrom, if_neg (by decide), if_pos rfl]
  have hscan := scanText_quote s rest
  split
  · simp_all
  · simp_all

/-- What may follow a word: the end of the text, or a character that belongs to no word. -/
def EndsWord (rest : List Char) : Prop := ∀ ch ∈ rest.head?, inWord ch = false

/-- So is a word that nothing goes on with. -/
theorem readFrom_word {w : List Char} (hne : w ≠ []) (hw : ∀ ch ∈ w, inWord ch = true)
    {value : Json} (hvalue : word? w = some value) {rest : List Char} (hrest : EndsWord rest)
    (p : Progress) :
    readFrom p (w ++ rest) = (step p (.word value)).bind fun q => readFrom q rest := by
  refine readFrom_of_tokens? ?_ p
  obtain ⟨c, more, rfl⟩ := List.exists_cons_of_ne_nil hne
  have hmore : ∀ ch ∈ more, inWord ch = true := fun ch hch => hw ch (List.mem_cons_of_mem _ hch)
  have hc := hw c List.mem_cons_self
  simp only [inWord, Bool.and_eq_true, Bool.not_eq_true', bne_iff_ne, ne_eq,
    Option.isNone_iff_eq_none] at hc
  obtain ⟨⟨hblank, hquote⟩, hpunctuation⟩ := hc
  have htake : (more ++ rest).takeWhile inWord = more := by
    rw [List.takeWhile_append_of_pos hmore]
    cases rest with
    | nil => simp
    | cons ch rest => simp [hrest ch rfl]
  have hdrop : (more ++ rest).dropWhile inWord = rest := by
    rw [List.dropWhile_append_of_pos hmore]
    cases rest with
    | nil => rfl
    | cons ch rest => simp [hrest ch rfl]
  rw [List.cons_append, tokens?, tokensFrom, if_neg (by simp [hblank]), if_neg hquote]
  simp only [hpunctuation, htake, hdrop, hvalue]

/-! ### Values -/

/-- A value may come next. -/
def Expected.TakesValue : Expected → Prop
  | .firstItem | .value => True
  | _ => False

/-- A name may come next. -/
def Expected.TakesName : Expected → Prop
  | .firstName | .name => True
  | _ => False

/-- Where a value may come next, its first token begins it. -/
theorem step_of_takesValue {e : Expected} (he : e.TakesValue) (stack : List Frame) {t : Token}
    (ht : t ≠ .closeArray) : step ⟨e, stack⟩ t = startValue stack t := by
  cases e with
  | firstItem => cases t <;> first | rfl | exact absurd rfl ht
  | value => cases t <;> rfl
  | firstName | name | colon | next _ => exact he.elim

/-- A value reads back from its text wherever a value may come next, whatever is open around it. -/
def ReadsBack (j : Json) : Prop :=
  ∀ (e : Expected) (stack : List Frame) (rest : List Char), e.TakesValue → EndsWord rest →
    readFrom ⟨e, stack⟩ (compact j ++ rest) = readFrom ⟨.next j, stack⟩ rest

/-- A word reads back as its value. -/
theorem readsBack_of_word? {j : Json} (hne : compact j ≠ [])
    (hword : (compact j).all inWord = true) (h : word? (compact j) = some j) : ReadsBack j := by
  intro e stack rest he hrest
  rw [readFrom_word hne (List.all_eq_true.1 hword) h hrest, step_of_takesValue he stack (by simp)]
  rfl

/-- The items of an open array read back, up to the bracket that closes it. -/
theorem readFrom_compactItems {item : Json} {items : List Json}
    (h : ∀ j ∈ item :: items, ReadsBack j) {e : Expected} (he : e.TakesValue) (done : List Json)
    (stack : List Frame) (rest : List Char) :
    readFrom ⟨e, .array done :: stack⟩ (compactItems (item :: items) ++ ']' :: rest) =
      readFrom ⟨.next (array (done.reverse ++ item :: items)), stack⟩ rest := by
  induction items generalizing item e done with
  | nil =>
    have hitem := h item List.mem_cons_self e (.array done :: stack) (']' :: rest) he
      (by simp [EndsWord, inWord, punctuation?])
    rw [compactItems, hitem, readFrom_punctuation rfl]
    show readFrom ⟨.next (array (item :: done).reverse), stack⟩ rest = _
    rw [List.reverse_cons]
  | cons next items ih =>
    have hitem := h item List.mem_cons_self e (.array done :: stack)
      (',' :: (compactItems (next :: items) ++ ']' :: rest)) he
      (by simp [EndsWord, inWord, punctuation?])
    rw [compactItems, List.append_assoc, List.cons_append, hitem,
      readFrom_punctuation rfl]
    show readFrom ⟨.value, .array (item :: done) :: stack⟩ _ = _
    rw [ih (fun j hj => h j (List.mem_cons_of_mem _ hj)) (e := .value) trivial]
    simp

/-- A field of an open object reads back, up to what follows its value. -/
theorem readFrom_field (name : String) {value : Json} (h : ReadsBack value) {e : Expected}
    (he : e.TakesName) (done : List (String × Json)) (stack : List Frame) {rest : List Char}
    (hrest : EndsWord rest) :
    readFrom ⟨e, .object (some done) none :: stack⟩
        (quote name ++ ':' :: (compact value ++ rest)) =
      readFrom ⟨.next value, .object (some done) (some name) :: stack⟩ rest := by
  have hname : step ⟨e, .object (some done) none :: stack⟩ (.text (some name)) =
      some ⟨.colon, .object (some done) (some name) :: stack⟩ := by
    cases e with
    | firstName | name => rfl
    | firstItem | value | colon | next _ => exact he.elim
  rw [readFrom_quote, hname]
  show readFrom ⟨.colon, _⟩ (':' :: _) = _
  rw [readFrom_punctuation rfl]
  exact h .value _ rest trivial hrest

/-- The fields of an open object read back, up to the bracket that closes it. -/
theorem readFrom_compactFields {field : String × Json} {fields : List (String × Json)}
    (h : ∀ f ∈ field :: fields, ReadsBack f.2) {e : Expected} (he : e.TakesName)
    (done : List (String × Json)) (stack : List Frame) (rest : List Char) :
    readFrom ⟨e, .object (some done) none :: stack⟩
        (compactFields (field :: fields) ++ '\x7d' :: rest) =
      readFrom ⟨.next (object (done.reverse ++ field :: fields)), stack⟩ rest := by
  induction fields generalizing field e done with
  | nil =>
    obtain ⟨name, value⟩ := field
    have hend : EndsWord ('\x7d' :: rest) := by simp [EndsWord, inWord, punctuation?]
    have hfield := readFrom_field name (h _ List.mem_cons_self) he done stack hend
    rw [compactFields, List.append_assoc, List.cons_append, hfield,
      readFrom_punctuation rfl]
    show readFrom ⟨.next (object ((name, value) :: done).reverse), stack⟩ rest = _
    rw [List.reverse_cons]
  | cons next fields ih =>
    obtain ⟨name, value⟩ := field
    have hend : EndsWord (',' :: (compactFields (next :: fields) ++ '\x7d' :: rest)) := by
      simp [EndsWord, inWord, punctuation?]
    have hfield := readFrom_field name (h _ List.mem_cons_self) he done stack hend
    have htext : compactFields ((name, value) :: next :: fields) ++ '\x7d' :: rest =
        quote name ++ ':' :: (compact value ++
          ',' :: (compactFields (next :: fields) ++ '\x7d' :: rest)) := by
      simp [compactFields]
    rw [htext, hfield, readFrom_punctuation rfl]
    show readFrom ⟨.name, .object (some ((name, value) :: done)) none :: stack⟩ _ = _
    rw [ih (fun f hf => h f (List.mem_cons_of_mem _ hf)) (e := .name) trivial]
    simp

/-- **A proper value reads back wherever it stands**, by induction over the value. -/
theorem Proper.readsBack {j : Json} (h : Proper j) : ReadsBack j := by
  induction h with
  | null => exact readsBack_of_word? (by decide) (by decide) rfl
  | bool b => cases b <;> exact readsBack_of_word? (by decide) (by decide) rfl
  | integer n =>
    refine readsBack_of_word? ?_ ?_ ?_
    · rw [compact]
      exact integerText_ne_nil n
    · rw [compact]
      exact List.all_eq_true.2 (integerText_inWord n)
    · rw [compact]
      exact word?_integerText n
  | string s =>
    intro e stack rest he _
    rw [compact, readFrom_quote, step_of_takesValue he stack (by simp)]
    rfl
  | @array items _ ih =>
    intro e stack rest he _
    rw [compact, List.append_assoc, List.cons_append, readFrom_punctuation rfl,
      step_of_takesValue he stack (by simp)]
    show readFrom ⟨.firstItem, .array [] :: stack⟩ _ = _
    cases items with
    | nil =>
      rw [compactItems, List.nil_append, List.singleton_append,
        readFrom_punctuation rfl]
      rfl
    | cons item items => exact readFrom_compactItems ih (e := .firstItem) trivial [] stack rest
  | @object fields _ ih =>
    intro e stack rest he _
    rw [compact, List.append_assoc, List.cons_append, readFrom_punctuation rfl,
      step_of_takesValue he stack (by simp)]
    show readFrom ⟨.firstName, .object (some []) none :: stack⟩ _ = _
    cases fields with
    | nil =>
      rw [compactFields, List.nil_append, List.singleton_append,
        readFrom_punctuation rfl]
      rfl
    | cons field fields => exact readFrom_compactFields ih (e := .firstName) trivial [] stack rest

/-- **A value reads back from its compact text.** -/
theorem read?_compact {j : Json} (h : Proper j) : read? (String.ofList (compact j)) = some j := by
  have hread := h.readsBack .value [] [] trivial (by simp [EndsWord])
  have hend : readFrom ⟨.next j, []⟩ [] = some ⟨.next j, []⟩ := by
    simp [readFrom, tokens?, tokensFrom]
  rw [List.append_nil, hend] at hread
  obtain ⟨ts, htokens, hsteps⟩ := Option.bind_eq_some_iff.1 hread
  rw [read?, String.toList_ofList, htokens]
  show ofTokens? ts = some j
  rw [ofTokens?, hsteps]

/-! ### No control characters -/

/-- A text without any character below the space. -/
def Printable (cs : List Char) : Prop := ∀ ch ∈ cs, 32 ≤ ch.toNat

/-- Two texts without control characters make one. -/
theorem Printable.append {cs ds : List Char} (hcs : Printable cs) (hds : Printable ds) :
    Printable (cs ++ ds) := by
  intro ch hch
  rcases List.mem_append.1 hch with hch | hch
  · exact hcs ch hch
  · exact hds ch hch

/-- So do a character that is no control character and such a text. -/
theorem Printable.cons {c : Char} {cs : List Char} (hc : 32 ≤ c.toNat) (hcs : Printable cs) :
    Printable (c :: cs) := by
  rintro ch (_ | ⟨_, hch⟩)
  · exact hc
  · exact hcs ch hch

instance (cs : List Char) : Decidable (Printable cs) :=
  List.decidableBAll (fun ch : Char => 32 ≤ ch.toNat) cs

/-- A character is written without control characters, also one that is one. -/
theorem printable_escapeChar (c : Char) : Printable (escapeChar c) := by
  have hhex : ∀ n < 32, Printable [hexDigit (n / 16), hexDigit (n % 16)] := by decide
  unfold escapeChar
  split_ifs with hquote hslash hb hf hn hr ht hcontrol
  all_goals try decide
  · exact (show Printable ['\\', 'u', '0', '0'] by decide).append (hhex _ hcontrol)
  · exact .cons (Nat.le_of_not_lt hcontrol) (by simp [Printable])

/-- A quoted text has no control character. -/
theorem printable_quote (s : String) : Printable (quote s) := by
  refine .append (.cons (by decide) fun ch hch => ?_) (by decide)
  obtain ⟨c, -, hch⟩ := List.mem_flatMap.1 hch
  exact printable_escapeChar c ch hch

/-- The text of a whole number has no control character. -/
theorem printable_integerText (n : Int) : Printable (integerText n) := by
  have hdigits (m : Nat) : Printable (Decimal.digitsOf m) := by
    intro ch hch
    have hdigit := Decimal.allDigits_iff.1 (Decimal.allDigits_digitsOf m) ch hch
    have hlow : 48 ≤ ch.toNat := (Char.isDigit_iff_toNat.1 hdigit).1
    omega
  cases n with
  | ofNat n => exact hdigits n
  | negSucc n => exact .cons (by decide) (hdigits _)

/-- The items of an array are written without control characters if each of them is. -/
theorem printable_compactItems {items : List Json}
    (h : ∀ item ∈ items, Printable (compact item)) : Printable (compactItems items) := by
  induction items with
  | nil => simp [Printable, compactItems]
  | cons item items ih =>
    have hitem := h item List.mem_cons_self
    cases items with
    | nil => rwa [compactItems]
    | cons next items =>
      rw [compactItems]
      exact hitem.append (.cons (by decide) (ih fun j hj => h j (List.mem_cons_of_mem _ hj)))

/-- So are the fields of an object, whose names are quoted. -/
theorem printable_compactFields {fields : List (String × Json)}
    (h : ∀ field ∈ fields, Printable (compact field.2)) : Printable (compactFields fields) := by
  induction fields with
  | nil => simp [Printable, compactFields]
  | cons field fields ih =>
    obtain ⟨name, value⟩ := field
    have hfield : Printable (quote name ++ ':' :: compact value) :=
      (printable_quote name).append (.cons (by decide) (h _ List.mem_cons_self))
    cases fields with
    | nil => rwa [compactFields]
    | cons next fields =>
      rw [compactFields]
      exact hfield.append (.cons (by decide) (ih fun f hf => h f (List.mem_cons_of_mem _ hf)))

/-- **A compact text holds no control character**, so it is a single line. -/
theorem Proper.printable_compact {j : Json} (h : Proper j) : Printable (compact j) := by
  induction h with
  | null => decide
  | bool b => cases b <;> decide
  | integer n =>
    rw [compact]
    exact printable_integerText n
  | string s =>
    rw [compact]
    exact printable_quote s
  | array _ ih =>
    rw [compact]
    exact .append (.cons (by decide) (printable_compactItems ih)) (by decide)
  | object _ ih =>
    rw [compact]
    exact .append (.cons (by decide) (printable_compactFields ih)) (by decide)

end Json
end ImageCheck
