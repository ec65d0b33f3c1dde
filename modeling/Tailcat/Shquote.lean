import Tailcat.Basic
import Tailcat.Library.Appending
import Tailcat.Library.CommandLine

/-!
# Quoting a proxy command

`tc_proxycmd_join` of `src/shquote.c`: the arguments of a command become one line, which OpenSSH
expands and hands to a shell or, on Windows, to a program. An argument is a C string, here without its
terminator.

## Main results

* `join_lossless`: the readers of the line get back the arguments.
-/

namespace Shquote

open Appending CommandLine List

/-- `app`: append one byte, if there is still room for it and the terminator. -/
def app (cap : ℕ) (out : Bytes) (c : UInt8) : Except Err Bytes :=
  if out.length + 1 ≥ cap then .error .nospace else .ok (out ++ [c])

def appStr (cap : ℕ) (out : Bytes) (s : Bytes) : Except Err Bytes := s.foldlM (app cap) out

def hasControl (s : Bytes) : Bool := s.any fun c => c < 0x20 || c = 0x7f

def appSeparator (cap : ℕ) (out : Bytes) (i : ℕ) : Except Err Bytes :=
  if i > 0 then app cap out space else .ok out

/-- One byte of an argument in `join_posix`. -/
def appPosix (cap : ℕ) (out : Bytes) (c : UInt8) : Except Err Bytes :=
  if c = squote then appStr cap out [squote, dquote, squote, dquote, squote]
  -- Doubled for the token expansion of OpenSSH.
  else if c = percent then appStr cap out [percent, percent]
  else app cap out c

def joinPosix (cap : ℕ) (args : List Bytes) : Except Err Bytes :=
  args.zipIdx.foldlM (fun out arg => do
    let out ← appSeparator cap out arg.2
    let out ← app cap out squote
    let out ← arg.1.foldlM (appPosix cap) out
    app cap out squote) []

def joinWindows (cap : ℕ) (args : List Bytes) : Except Err Bytes :=
  args.zipIdx.foldlM (fun out arg => do
    -- `cmd.exe` expands `%VAR%` and `!VAR!` even inside quotes.
    if arg.1.any fun c => c = dquote || c = percent || c = 0x21 then throw .inval
    let out ← appSeparator cap out arg.2
    let out ← app cap out dquote
    let out ← appStr cap out arg.1
    let out ← appStr cap out (replicate (trailing arg.1) backslash)
    app cap out dquote) []

def proxycmdJoin (cap : ℕ) (args : List Bytes) (windows : Bool) : Except Err Bytes :=
  if cap = 0 then .error .inval
  else if args.any hasControl then .error .inval
  else if windows then joinWindows cap args else joinPosix cap args

/-! ## What is written -/

lemma appends_app (cap : ℕ) (c : UInt8) : Appends (fun out => app cap out c) [c] := by
  intro out out' h
  dsimp only [app] at h
  split at h
  · cases h
  · cases h
    rfl

lemma appends_appStr (cap : ℕ) (s : Bytes) : Appends (fun out => appStr cap out s) s := by
  have h := Appends.foldlM (l := s) fun c _ => appends_app cap c
  rwa [flatMap_singleton'] at h

/-- The separator before the argument at index `i`. -/
def separator (i : ℕ) : Bytes := if i > 0 then [space] else []

lemma appends_appSeparator (cap i : ℕ) :
    Appends (fun out => appSeparator cap out i) (separator i) := by
  unfold appSeparator separator
  split
  · exact appends_app cap space
  · exact .nothing

lemma flatMap_zipIdx (quote : Bytes → Bytes) (args : List Bytes) :
    (args.zipIdx.flatMap fun arg => separator arg.2 ++ quote arg.1) = separated quote args := by
  -- Behind the first argument every index is positive.
  have hrest : ∀ (k : ℕ) (l : List Bytes),
      ((l.zipIdx (k + 1)).flatMap fun arg => separator arg.2 ++ quote arg.1) =
        l.flatMap fun t => space :: quote t := by
    intro k l
    induction l generalizing k with
    | nil => rfl
    | cons t l ih =>
      rw [zipIdx_cons, flatMap_cons, ih]
      rfl
  cases args with
  | nil => rfl
  | cons s rest =>
    rw [zipIdx_cons, flatMap_cons, hrest]
    rfl

variable {cap : ℕ} {args : List Bytes} {out : Bytes}

lemma joinPosix_eq (h : joinPosix cap args = .ok out) : out = doubled (posixLine args) := by
  have hbyte : ∀ c, Appends (fun out => appPosix cap out c) (doubled (singleQuoted [c])) := by
    intro c
    unfold appPosix
    split
    · next hc =>
      have hline : doubled (singleQuoted [c]) = [squote, dquote, squote, dquote, squote] := by
        rw [hc]
        rfl
      rw [hline]
      exact appends_appStr cap _
    · next hsq =>
      split
      · next hc =>
        have hline : doubled (singleQuoted [c]) = [percent, percent] := by
          rw [hc]
          rfl
        rw [hline]
        exact appends_appStr cap _
      · next hpc =>
        have hline : doubled (singleQuoted [c]) = [c] := by simp [singleQuoted, doubled, hsq, hpc]
        rw [hline]
        exact appends_app cap c
  refine (Appends.foldlM (fun arg _ => (?_ : Appends _
    (separator arg.2 ++ doubled (squote :: singleQuoted arg.1 ++ [squote])))) [] out h).trans ?_
  · have hbody := Appends.foldlM (l := arg.1) fun c _ => hbyte c
    have hall := (appends_appSeparator cap arg.2).bind
      ((appends_app cap squote).bind (hbody.bind (appends_app cap squote)))
    have hflat : (arg.1.flatMap fun c => doubled (singleQuoted [c])) =
        doubled (singleQuoted arg.1) := by
      simp [doubled, singleQuoted, flatMap_assoc]
    rw [hflat] at hall
    have hquoted : doubled (squote :: singleQuoted arg.1 ++ [squote]) =
        [squote] ++ (doubled (singleQuoted arg.1) ++ [squote]) := by
      rw [← singleton_append, doubled_append, doubled_append]
      rfl
    rw [hquoted]
    exact hall
  · rw [nil_append, flatMap_zipIdx (fun s => doubled (squote :: singleQuoted s ++ [squote])),
      posixLine, doubled_separated]

lemma joinWindows_eq (h : joinWindows cap args = .ok out) :
    out = windowsLine args ∧ ∀ s ∈ args, dquote ∉ s ∧ percent ∉ s := by
  constructor
  · refine (Appends.foldlM (fun arg _ => (?_ : Appends _
      (separator arg.2 ++ (dquote :: doubleQuoted arg.1)))) [] out h).trans ?_
    · intro out out' hout
      dsimp only at hout
      split at hout
      · cases hout
      have hall := (appends_appSeparator cap arg.2).bind ((appends_app cap dquote).bind
        ((appends_appStr cap arg.1).bind
          ((appends_appStr cap (replicate (trailing arg.1) backslash)).bind
            (appends_app cap dquote))))
      have hwritten := hall out out' hout
      rw [doubleQuoted, append_assoc]
      exact hwritten
    · rw [flatMap_zipIdx fun s => dquote :: doubleQuoted s]
      rfl
  · intro s hs
    obtain ⟨arg, harg, rfl⟩ := mem_map.mp (by rwa [zipIdx_map_fst 0 args])
    obtain ⟨mid, mid', hround⟩ := exists_of_foldlM h harg
    split at hround
    · cases hround
    rename_i hclean
    rw [any_eq_true] at hclean
    push Not at hclean
    constructor
    · intro hmem
      exact hclean _ hmem (by decide)
    · intro hmem
      exact hclean _ hmem (by decide)

/-! ## Reading it back -/

/-- Where the join succeeds, its readers get the arguments back. For the shell: expanding the
percent tokens, whatever their values, and splitting the line gives exactly the arguments, and
nothing has been expanded. For Windows: the expansion leaves the line alone, and the argument vector
is exactly the arguments, unless the first of them, which the rules take as the name of a program
and whose backslashes they leave alone, ends in a backslash; by the rules for the other arguments
alone, every list comes back. -/
theorem join_lossless (tokens : UInt8 → Option Bytes) (cap : ℕ) (args : List Bytes) (out : Bytes) :
    (proxycmdJoin cap args false = .ok out →
      ∃ line, percentExpand tokens out = some line ∧ posixSplit line = some args) ∧
    (proxycmdJoin cap args true = .ok out →
      ∃ line, percentExpand tokens out = some line ∧ argvRest false 0 none line = args ∧
        ((∀ s ∈ args.head?, s.getLast? ≠ some backslash) → microsoftArgv line = args)) := by
  constructor
  · intro h
    unfold proxycmdJoin at h
    rw [if_neg Bool.false_ne_true] at h
    split_ifs at h with hcap hctl
    rw [joinPosix_eq h]
    exact ⟨posixLine args, percentExpand_doubled _, posixSplit_posixLine args⟩
  · intro h
    unfold proxycmdJoin at h
    rw [if_pos rfl] at h
    split_ifs at h with hcap hctl
    obtain ⟨rfl, hargs⟩ := joinWindows_eq h
    have hexpand : percentExpand tokens (windowsLine args) = some (windowsLine args) := by
      have hdoubled := doubled_of_not_mem (percent_notMem_windowsLine fun s hs => (hargs s hs).2)
      have hback : percentExpand tokens (doubled (windowsLine args)) = some (windowsLine args) :=
        percentExpand_doubled _
      rwa [hdoubled] at hback
    refine ⟨windowsLine args, hexpand, argvRest_windowsLine fun s hs => (hargs s hs).1, ?_⟩
    intro hfirst
    cases args with
    | nil => rfl
    | cons s args =>
      rw [microsoftArgv_windowsLine fun t ht => (hargs t ht).1, trailing_eq_zero (hfirst s rfl),
        replicate_zero, append_nil]

/-- A list the quoting must not disturb: `it's`, `50%`, nothing, and `a b\`. -/
def awkward : List Bytes :=
  [[0x69, 0x74, squote, 0x73], [0x35, 0x30, percent], [], [0x61, space, 0x62, backslash]]

def awkwardWindows : List Bytes := [[0x69, 0x74, squote, 0x73], [], [0x61, space, 0x62, backslash]]

theorem join_lossless_awkward :
    (∃ line, percentExpand (fun _ => none) (doubled (posixLine awkward)) = some line ∧
      posixSplit line = some awkward) ∧
    ∃ line, percentExpand (fun _ => none) (windowsLine awkwardWindows) = some line ∧
      microsoftArgv line = awkwardWindows := by
  refine ⟨(join_lossless (fun _ => none) 64 awkward _).1 (by decide +kernel), ?_⟩
  obtain ⟨line, hline, -, hargv⟩ :=
    (join_lossless (fun _ => none) 64 awkwardWindows (windowsLine awkwardWindows)).2
      (by decide +kernel)
  exact ⟨line, hline, hargv (by decide +kernel)⟩

/-- A first argument that ends in a backslash comes back with two. -/
theorem join_first_backslash :
    ∃ args out, (∀ s ∈ args, hasControl s = false) ∧ proxycmdJoin 16 args true = .ok out ∧
      ∀ line, percentExpand (fun _ => none) out = some line → microsoftArgv line ≠ args := by
  refine ⟨[[backslash]], [dquote, backslash, backslash, dquote], by decide +kernel,
    by decide +kernel, ?_⟩
  intro line hline
  have hexpand : percentExpand (fun _ => none) [dquote, backslash, backslash, dquote] =
      some [dquote, backslash, backslash, dquote] := by decide +kernel
  cases hexpand.symm.trans hline
  decide +kernel

end Shquote
