import Mathlib.Data.UInt

/-!
# Command lines

How three readers take a command line apart: the `%` tokens of OpenSSH, the quoting rules of the POSIX
shell, and the rules by which the Microsoft runtime makes an argument vector. `posixSplit` fails on
everything that is more than quoting and splitting, so where it succeeds nothing has been expanded.

## Main results

* `percentExpand_doubled`: doubling the percent signs of a line makes the expansion give it back;
* `posixWords_quoted` and `argvRest_quoted`: reading a string in single and in double quotes.
-/

namespace CommandLine

open List

abbrev Bytes := List UInt8

/-- The double quote. -/
def dquote : UInt8 := 0x22
/-- The single quote. -/
def squote : UInt8 := 0x27
/-- The percent sign. -/
def percent : UInt8 := 0x25
/-- The backslash. -/
def backslash : UInt8 := 0x5c
/-- The space. -/
def space : UInt8 := 0x20
/-- The horizontal tab. -/
def tab : UInt8 := 0x09
/-- The line feed. -/
def newline : UInt8 := 0x0a
/-- The dollar sign. -/
def dollar : UInt8 := 0x24
/-- The grave accent. -/
def backquote : UInt8 := 0x60

def isBlank (b : UInt8) : Bool := b = space ∨ b = tab

/-- Strings written by `quote`, with spaces between them. -/
def separated (quote : Bytes → Bytes) : List Bytes → Bytes
  | [] => []
  | s :: rest => quote s ++ rest.flatMap fun t => space :: quote t

lemma mem_separated {quote : Bytes → Bytes} {b : UInt8} {words : List Bytes}
    (h : b ∈ separated quote words) : b = space ∨ ∃ s ∈ words, b ∈ quote s := by
  cases words with
  | nil => cases h
  | cons s rest =>
    rcases mem_append.mp h with h | h
    · exact .inr ⟨s, mem_cons_self, h⟩
    obtain ⟨t, ht, hb⟩ := mem_flatMap.mp h
    rcases mem_cons.mp hb with hb | hb
    · exact .inl hb
    · exact .inr ⟨t, mem_cons_of_mem s ht, hb⟩

lemma separated_cons_cons (quote : Bytes → Bytes) (s t : Bytes) (rest : List Bytes) :
    separated quote (s :: t :: rest) = quote s ++ space :: separated quote (t :: rest) := by
  simp [separated]

/-! ## Percent tokens -/

/-- The expansion of percent tokens: `%%` is a percent sign, a token has its value, anything else
after a percent sign is an error. -/
def percentExpand (tokens : UInt8 → Option Bytes) : Bytes → Option Bytes
  | [] => some []
  | [b] => if b = percent then none else some [b]
  | b :: c :: rest =>
    if b = percent then
      (if c = percent then some [percent] else tokens c).bind fun v =>
        (percentExpand tokens rest).map (v ++ ·)
    else (percentExpand tokens (c :: rest)).map (b :: ·)

def doubled (s : Bytes) : Bytes :=
  s.flatMap fun b => if b = percent then [percent, percent] else [b]

variable {tokens : UInt8 → Option Bytes} {s : Bytes} {args : List Bytes}

lemma percentExpand_cons {b : UInt8} (hb : b ≠ percent) (s : Bytes) :
    percentExpand tokens (b :: s) = (percentExpand tokens s).map (b :: ·) := by
  cases s with
  | nil => simp [percentExpand, hb]
  | cons c s => rw [percentExpand, if_neg hb]

/-- Expanding a line with doubled percent signs gives back the line. -/
theorem percentExpand_doubled (s : Bytes) : percentExpand tokens (doubled s) = some s := by
  induction s with
  | nil => rfl
  | cons b s ih =>
    rw [doubled, flatMap_cons]
    change percentExpand tokens (_ ++ doubled s) = _
    split
    · next hb => simp [percentExpand, ih, hb]
    · next hb => rw [singleton_append, percentExpand_cons hb, ih, Option.map_some]

lemma doubled_of_not_mem (h : percent ∉ s) : doubled s = s := by
  induction s with
  | nil => rfl
  | cons b s ih =>
    rw [mem_cons, not_or] at h
    obtain ⟨hb, hs⟩ := h
    rw [doubled, flatMap_cons, if_neg (Ne.symm hb)]
    exact congrArg (b :: ·) (ih hs)

lemma doubled_append (s t : Bytes) : doubled (s ++ t) = doubled s ++ doubled t := flatMap_append

lemma doubled_separated (quote : Bytes → Bytes) (words : List Bytes) :
    doubled (separated quote words) = separated (fun s => doubled (quote s)) words := by
  cases words with
  | nil => rfl
  | cons s rest =>
    rw [separated, doubled_append]
    congr 1
    rw [doubled, flatMap_assoc]
    rfl

/-! ## The POSIX shell -/

inductive Mode
  | plain
  | single
  | double
  /-- Behind a backslash outside of quotes. -/
  | escaped
  /-- Behind a backslash in double quotes. -/
  | doubleEscaped
  deriving DecidableEq

/-- The bytes that do more than stand for themselves outside of quotes. -/
def isActive (b : UInt8) : Bool :=
  b ∈ [newline, dollar, backquote,
    -- | & ; < > ( )
    0x7c, 0x26, 0x3b, 0x3c, 0x3e, 0x28, 0x29,
    -- * ? [ # ~ = and the signs of reserved words
    0x2a, 0x3f, 0x5b, 0x23, 0x7e, 0x3d, 0x21, 0x7b, 0x7d]

/-- The words of a line, from a state of the reader and the word that is being read. A quote makes a
word even if nothing is in it. -/
def posixWords : Mode → Option Bytes → Bytes → Option (List Bytes)
  | .plain, word, [] => some word.toList
  | _, _, [] => none
  | .plain, word, b :: rest =>
    if isBlank b then (posixWords .plain none rest).map (word.toList ++ ·)
    else if b = squote then posixWords .single (some (word.getD [])) rest
    else if b = dquote then posixWords .double (some (word.getD [])) rest
    else if b = backslash then posixWords .escaped word rest
    else if isActive b then none
    else posixWords .plain (some (word.getD [] ++ [b])) rest
  | .single, word, b :: rest =>
    if b = squote then posixWords .plain word rest
    else posixWords .single (some (word.getD [] ++ [b])) rest
  | .double, word, b :: rest =>
    if b = dquote then posixWords .plain word rest
    else if b = backslash then posixWords .doubleEscaped word rest
    else if b = dollar || b = backquote then none
    else posixWords .double (some (word.getD [] ++ [b])) rest
  | .escaped, word, b :: rest =>
    -- A backslash and a line feed together are a continued line.
    if b = newline then posixWords .plain word rest
    else posixWords .plain (some (word.getD [] ++ [b])) rest
  | .doubleEscaped, word, b :: rest =>
    if b = newline then posixWords .double word rest
    else if b = dollar || b = backquote || b = dquote || b = backslash then
      posixWords .double (some (word.getD [] ++ [b])) rest
    else posixWords .double (some (word.getD [] ++ [backslash, b])) rest

def posixSplit (line : Bytes) : Option (List Bytes) := posixWords .plain none line

/-- A string in single quotes, without the quotes around it: a single quote is written in double
quotes between two quoted parts. -/
def singleQuoted (s : Bytes) : Bytes :=
  s.flatMap fun b => if b = squote then [squote, dquote, squote, dquote, squote] else [b]

/-- Reading a quoted string. -/
theorem posixWords_quoted (w s rest : Bytes) :
    posixWords .single (some w) (singleQuoted s ++ rest) =
      posixWords .single (some (w ++ s)) rest := by
  induction s generalizing w with
  | nil => simp [singleQuoted]
  | cons b s ih =>
    rw [singleQuoted, flatMap_cons]
    change posixWords .single (some w) (_ ++ singleQuoted s ++ rest) = _
    rw [append_assoc]
    split
    · next hb =>
      have hout : posixWords .single (some w)
          ([squote, dquote, squote, dquote, squote] ++ (singleQuoted s ++ rest)) =
            posixWords .single (some (w ++ [squote])) (singleQuoted s ++ rest) := by
        simp [posixWords, isBlank, squote, dquote, space, tab, backslash, dollar, backquote]
      rw [hout, ih, hb, append_assoc]
      rfl
    · next hb =>
      rw [singleton_append, posixWords, if_neg hb, ih, append_assoc]
      rfl

def posixLine (words : List Bytes) : Bytes :=
  separated (fun s => squote :: singleQuoted s ++ [squote]) words

lemma posixSplit_posixLine (words : List Bytes) : posixSplit (posixLine words) = some words := by
  -- An opening quote between words starts an empty word.
  have hopen : ∀ s rest, posixWords .plain none (squote :: singleQuoted s ++ rest) =
      posixWords .single (some s) rest := by
    intro s rest
    rw [cons_append, posixWords, if_neg (by decide), if_pos rfl, Option.getD_none,
      posixWords_quoted, nil_append]
  induction words with
  | nil => rfl
  | cons s rest ih =>
    cases rest with
    | nil =>
      rw [posixSplit, posixLine, separated, flatMap_nil, append_assoc, hopen,
        append_nil, posixWords]
      rfl
    | cons t rest =>
      rw [posixSplit, posixLine] at ih
      rw [posixSplit, posixLine, separated_cons_cons, append_assoc, hopen,
        singleton_append, posixWords, posixWords, ih]
      rfl

/-! ## The Microsoft argument vector -/

/-- The first argument, the name of the program, and what follows it: double quotes protect blanks,
and nothing else has a meaning. -/
def argvFirst : Bool → Bytes → Bytes → Bytes × Bytes
  | _, word, [] => (word, [])
  | quoted, word, b :: rest =>
    if b = dquote then argvFirst (!quoted) word rest
    else if !quoted && isBlank b then (word, rest)
    else argvFirst quoted (word ++ [b]) rest

/-- The other arguments, from a state of the reader: whether it is in quotes, how many backslashes
it has just read, and the word that is being read. Before a double quote two backslashes stand for
one, and a single one makes the quote stand for itself; elsewhere backslashes stand for themselves. Two
double quotes in a quoted part stand for one. -/
def argvRest : Bool → ℕ → Option Bytes → Bytes → List Bytes
  | _, slashes, word, [] => (word.map (· ++ replicate slashes backslash)).toList
  | quoted, slashes, word, b :: rest =>
    if b = backslash then argvRest quoted (slashes + 1) (some (word.getD [])) rest
    else if b = dquote then
      let w := word.getD [] ++ replicate (slashes / 2) backslash
      if slashes % 2 = 1 then argvRest quoted 0 (some (w ++ [dquote])) rest
      else
        match quoted, rest with
        | false, rest => argvRest true 0 (some w) rest
        | true, [] => argvRest false 0 (some w) []
        | true, c :: rest' =>
          if c = dquote then argvRest true 0 (some (w ++ [dquote])) rest'
          else argvRest false 0 (some w) (c :: rest')
    else if !quoted && isBlank b then
      (word.map (· ++ replicate slashes backslash)).toList ++ argvRest false 0 none rest
    else argvRest quoted 0 (some (word.getD [] ++ replicate slashes backslash ++ [b])) rest

def microsoftArgv : Bytes → List Bytes
  | [] => []
  | b :: line =>
    let (first, rest) := argvFirst false [] (b :: line)
    first :: argvRest false 0 none rest

def trailing (s : Bytes) : ℕ := (s.reverse.takeWhile (· = backslash)).length

lemma trailing_eq_zero (h : s.getLast? ≠ some backslash) : trailing s = 0 := by
  rw [trailing, length_eq_zero_iff]
  cases hs : s.reverse with
  | nil => rfl
  | cons b t =>
    have hlast : s.getLast? = some b := by rw [getLast?_eq_head?_reverse, hs, head?_cons]
    rw [hlast] at h
    exact takeWhile_cons_of_neg fun hb => h (congrArg some (of_decide_eq_true hb))

lemma trailing_concat (s : Bytes) (b : UInt8) :
    trailing (s ++ [b]) = if b = backslash then trailing s + 1 else 0 := by
  split <;> simp_all [trailing]

/-- The backslashes that a reader has behind it after a string, if it had `n` before. -/
def pending : ℕ → Bytes → ℕ
  | n, [] => n
  | n, b :: s => if b = backslash then pending (n + 1) s else pending 0 s

/-- What a reader has taken of a string, apart from these. -/
def settled : ℕ → Bytes → Bytes
  | _, [] => []
  | n, b :: s =>
    if b = backslash then settled (n + 1) s
    else replicate n backslash ++ b :: settled 0 s

lemma settled_append_pending (n : ℕ) (s : Bytes) :
    settled n s ++ replicate (pending n s) backslash = replicate n backslash ++ s := by
  induction s generalizing n with
  | nil => simp [settled, pending]
  | cons b s ih =>
    rw [settled, pending]
    split
    · next hb => rw [ih, hb, replicate_succ', append_assoc, singleton_append]
    · rw [append_assoc, cons_append, ih, replicate_zero, nil_append]

lemma pending_append (n : ℕ) (s t : Bytes) : pending n (s ++ t) = pending (pending n s) t := by
  induction s generalizing n with
  | nil => rfl
  | cons b s ih =>
    rw [cons_append, pending, pending]
    split <;> rw [ih]

lemma pending_zero (s : Bytes) : pending 0 s = trailing s := by
  induction s using reverseRecOn with
  | nil => rfl
  | append_singleton s b ih => rw [pending_append, trailing_concat, pending, ih, pending, pending]

lemma argvRest_append (hs : dquote ∉ s) (n : ℕ) (w rest : Bytes) :
    argvRest true n (some w) (s ++ rest) =
      argvRest true (pending n s) (some (w ++ settled n s)) rest := by
  induction s generalizing n w with
  | nil => simp [pending, settled]
  | cons b s ih =>
    rw [mem_cons, not_or] at hs
    rw [cons_append, argvRest, pending, settled]
    split
    · rw [Option.getD_some, ih hs.2]
    · rw [if_neg (Ne.symm hs.1), ih hs.2]
      simp

/-- A string in double quotes, without the first of them: the backslashes at its end are doubled, so
that they do not make the closing quote stand for itself. -/
def doubleQuoted (s : Bytes) : Bytes := s ++ replicate (trailing s) backslash ++ [dquote]

/-- Reading a string in double quotes. -/
theorem argvRest_quoted (hs : dquote ∉ s) {rest : Bytes} (hrest : rest.head? ≠ some dquote) :
    argvRest true 0 (some []) (doubleQuoted s ++ rest) = argvRest false 0 (some s) rest := by
  have hslash : dquote ∉ s ++ replicate (trailing s) backslash := by
    rw [mem_append, not_or]
    exact ⟨hs, fun h => absurd (eq_of_mem_replicate h) (by decide)⟩
  have hpending : pending 0 (s ++ replicate (trailing s) backslash) = trailing s + trailing s := by
    have hrep : ∀ n t, pending n (replicate t backslash) = n + t := by
      intro n t
      induction t generalizing n with
      | zero => rfl
      | succ t ih => rw [replicate_succ, pending, if_pos rfl, ih]; omega
    rw [pending_append, pending_zero, hrep]
  have hsettled : settled 0 (s ++ replicate (trailing s) backslash) ++
      replicate (trailing s) backslash = s := by
    have h := settled_append_pending 0 (s ++ replicate (trailing s) backslash)
    rw [hpending, replicate_add, ← append_assoc, replicate_zero] at h
    exact append_cancel_right h
  rw [doubleQuoted, append_assoc, argvRest_append hslash, hpending, singleton_append,
    nil_append, argvRest, if_neg (by decide), if_pos rfl]
  have heven : (trailing s + trailing s) / 2 = trailing s := by omega
  rw [if_neg (by omega), Option.getD_some, heven, hsettled]
  cases rest with
  | nil => rfl
  | cons c rest =>
    have hc : c ≠ dquote := fun h => hrest (by rw [h]; rfl)
    exact if_neg hc

def windowsLine (args : List Bytes) : Bytes := separated (fun s => dquote :: doubleQuoted s) args

lemma percent_notMem_windowsLine (h : ∀ s ∈ args, percent ∉ s) : percent ∉ windowsLine args := by
  intro hmem
  rcases mem_separated hmem with hp | ⟨s, hs, hp⟩
  · exact absurd hp (by decide)
  -- Around the argument there are only backslashes and quotes.
  rw [doubleQuoted, mem_cons, mem_append, mem_append] at hp
  rcases hp with hp | (hp | hp) | hp
  · exact absurd hp (by decide)
  · exact h s hs hp
  · exact absurd (eq_of_mem_replicate hp) (by decide)
  · exact absurd hp (by decide)

lemma argvRest_windowsLine (h : ∀ s ∈ args, dquote ∉ s) :
    argvRest false 0 none (windowsLine args) = args := by
  have hopen : ∀ l : Bytes, argvRest false 0 none (dquote :: l) = argvRest true 0 (some []) l := by
    intro l
    rfl
  induction args with
  | nil => rfl
  | cons s rest ih =>
    have hs := h s mem_cons_self
    have hrest := ih fun t ht => h t (mem_cons_of_mem s ht)
    cases rest with
    | nil =>
      rw [windowsLine, separated, cons_append, hopen, argvRest_quoted hs (by simp)]
      simp [argvRest]
    | cons t rest =>
      rw [windowsLine] at hrest
      rw [windowsLine, separated_cons_cons, cons_append, hopen,
        argvRest_quoted hs (by simp [space, dquote]), argvRest, if_neg (by decide),
        if_neg (by decide), if_pos (by decide), hrest]
      simp

lemma argvFirst_quoted (hs : dquote ∉ s) (w rest : Bytes) :
    argvFirst true w (s ++ dquote :: rest) = argvFirst false (w ++ s) rest := by
  induction s generalizing w with
  | nil => rw [nil_append, argvFirst, append_nil]; rfl
  | cons b s ih =>
    rw [mem_cons, not_or] at hs
    rw [cons_append, argvFirst, if_neg (Ne.symm hs.1), ih hs.2, append_assoc]
    rfl

lemma microsoftArgv_windowsLine (h : ∀ t ∈ s :: args, dquote ∉ t) :
    microsoftArgv (windowsLine (s :: args)) = (s ++ replicate (trailing s) backslash) :: args := by
  have hfirst : dquote ∉ s ++ replicate (trailing s) backslash := by
    rw [mem_append, not_or]
    exact ⟨h s mem_cons_self, fun hr => absurd (eq_of_mem_replicate hr) (by decide)⟩
  have hopen : ∀ rest, argvFirst false [] (dquote :: doubleQuoted s ++ rest) =
      argvFirst false (s ++ replicate (trailing s) backslash) rest := by
    intro rest
    rw [cons_append, argvFirst, doubleQuoted, append_assoc]
    exact (argvFirst_quoted hfirst [] rest).trans (by rw [nil_append])
  have hargv : ∀ rest, microsoftArgv (dquote :: doubleQuoted s ++ rest) =
      (argvFirst false [] (dquote :: doubleQuoted s ++ rest)).1 ::
        argvRest false 0 none (argvFirst false [] (dquote :: doubleQuoted s ++ rest)).2 :=
    fun _ => rfl
  cases args with
  | nil =>
    rw [windowsLine, separated, hargv, hopen]
    rfl
  | cons t args =>
    have hline := argvRest_windowsLine fun u hu => h u (mem_cons_of_mem s hu)
    rw [windowsLine, separated_cons_cons, hargv, hopen, argvFirst, if_neg (by decide)]
    exact congrArg _ hline

end CommandLine
