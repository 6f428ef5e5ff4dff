/-!
# White space, occurrences and escapes

* `isBlank`: the twenty-five characters with the Unicode property `White_Space`.
* `trim`: a text without the white space at its two ends.
* `occursIn_iff`: `t` occurs in `s` when `s` is some text, then `t`, then some text.
* `takeUntil_append_dropUntil`: a run with escapes and what follows it make up the text.
-/

namespace RowQuery.Text

/-! ## White space -/

/-- The characters that separate words: the code points with the property `White_Space`. -/
def isBlank (c : Char) : Bool :=
  let n := c.toNat
  (0x9 ≤ n && n ≤ 0xD) || n == 0x20 || n == 0x85 || n == 0xA0 || n == 0x1680 ||
    (0x2000 ≤ n && n ≤ 0x200A) || n == 0x2028 || n == 0x2029 || n == 0x202F || n == 0x205F ||
    n == 0x3000

/-- `s` without leading white space. -/
def trimLeft (s : List Char) : List Char :=
  s.dropWhile isBlank

/-- `s` without white space at its two ends. -/
def trim (s : List Char) : List Char :=
  (trimLeft (trimLeft s).reverse).reverse

/-! ## Occurrences -/

/-- Whether `t` stands somewhere in a text, as consecutive characters. -/
def occursIn (t : List Char) : List Char → Bool
  | [] => t.isEmpty
  | c :: r => t.isPrefixOf (c :: r) || occursIn t r

theorem occursIn_iff {t s : List Char} : occursIn t s = true ↔ t <:+: s := by
  induction s with
  | nil => simp [occursIn, List.isEmpty_iff, List.infix_nil]
  | cons c r ih => simp [occursIn, ih, List.infix_cons_iff]

/-! ## Backslash escapes

A backslash takes the character after it out of its usual role.  A run of text up to a stopping
character therefore passes over the escaped ones, and the meaning of the run drops each escaping
backslash.  A backslash at the very end escapes nothing and stands for itself. -/

/-- The run from the start of a text up to its first unescaped character with `stop`. -/
def takeUntil (stop : Char → Bool) : List Char → List Char
  | [] => []
  | '\\' :: c :: r => '\\' :: c :: takeUntil stop r
  | c :: r => if stop c then [] else c :: takeUntil stop r

/-- The text from its first unescaped character with `stop` on. -/
def dropUntil (stop : Char → Bool) : List Char → List Char
  | [] => []
  | '\\' :: _ :: r => dropUntil stop r
  | c :: r => if stop c then c :: r else dropUntil stop r

/-- The characters that a run with escapes stands for. -/
def unescape : List Char → List Char
  | [] => []
  | '\\' :: c :: r => c :: unescape r
  | c :: r => c :: unescape r

theorem takeUntil_append_dropUntil (stop : Char → Bool) (s : List Char) :
    takeUntil stop s ++ dropUntil stop s = s := by
  fun_induction takeUntil stop s with
  | case1 => rfl
  | case2 c r ih => simp [dropUntil, ih]
  | case3 c r hn h => rw [dropUntil.eq_3 _ _ _ hn]; simp [h]
  | case4 c r hn h ih => rw [dropUntil.eq_3 _ _ _ hn]; simp [h, ih]

end RowQuery.Text
