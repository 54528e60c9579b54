import MyTeams.Client.Commands
import MyTeams.Lib.Quoting

/-!
# Command lines

What `_parse_line` accepts, against the grammar of quoted and bare arguments. The loop over the
arguments reads the tokens of the rest of the line (`parseArgs_of_lexed`) and gives up exactly at a
quote that is never closed (`parseArgs_of_unclosed`).

So a printed command line is read back (`parseLine_print`). But a bare argument is accepted as well
as a quoted one, and the documented rule, that all values are quoted, is enforced for no line that
has one (`onlyQuoted_iff`).
-/

namespace MyTeams

open Quoting

/-! ### The loop over the arguments -/

section ParseArgs

variable {n : ℕ} {a s : Str}

theorem space_ne_quote : space ≠ quote := by decide

theorem parseArgs_nil (n : ℕ) : parseArgs n [] = some [] := by
  cases n with
  | zero => rfl
  | succ n => rfl

theorem parseArgs_space (n : ℕ) (s : Str) : parseArgs n (space :: s) = parseArgs n s := by
  cases n with
  | zero => rfl
  | succ n => rw [parseArgs, parseArgs, List.dropWhile_cons_of_pos (by decide)]

/-- What is not a blank starts an argument. -/
theorem parseArgs_cons {b : UInt8} (hb : b ≠ space) (n : ℕ) (s : Str) :
    parseArgs (n + 1) (b :: s) =
      (parseArg (b :: s)).bind fun x ↦ (parseArgs n x.2).map (x.1 :: ·) := by
  rw [parseArgs, List.dropWhile_cons_of_neg (by simpa using hb)]
  dsimp only
  cases parseArg (b :: s) with
  | none => rfl
  | some x => rfl

theorem parseArgs_quoted (ha : quote ∉ a) (n : ℕ) (s : Str) :
    parseArgs (n + 1) (quote :: (a ++ quote :: s)) = (parseArgs n s).map (a :: ·) := by
  have harg : parseArg (quote :: (a ++ quote :: s)) = some (a, s) := by
    rw [parseArg, if_pos rfl, takeWhile_append_of_ends ha (ends_cons quote s),
      dropWhile_append_of_ends ha (ends_cons quote s)]
  rw [parseArgs_cons space_ne_quote.symm, harg, Option.bind_some]

theorem parseArgs_open (ha : quote ∉ a) (n : ℕ) : parseArgs (n + 1) (quote :: a) = none := by
  have harg : parseArg (quote :: a) = none := by
    have hrest := dropWhile_append_of_ends ha (ends_nil quote)
    rw [List.append_nil] at hrest
    rw [parseArg, if_pos rfl, hrest]
  rw [parseArgs_cons space_ne_quote.symm, harg, Option.bind_none]

theorem parseArgs_bare {b : UInt8} (hspace : b ≠ space) (hquote : b ≠ quote) (ha : space ∉ a)
    (hs : Ends space s) (n : ℕ) :
    parseArgs (n + 1) (b :: (a ++ s)) = (parseArgs n s).map ((b :: a) :: ·) := by
  have hmem : space ∉ b :: a := by simp [hspace.symm, ha]
  have harg : parseArg (b :: (a ++ s)) = some (b :: a, s) := by
    rw [parseArg, if_neg hquote, ← List.cons_append, takeWhile_append_of_ends hmem hs,
      dropWhile_append_of_ends hmem hs]
  rw [parseArgs_cons hspace, harg, Option.bind_some]

/-- A token takes a round, and a byte at least. -/
theorem length_lt_of_token {b : UInt8} (hn : (b :: (a ++ s)).length < n) :
    ∃ m, n = m + 1 ∧ s.length < m := by
  rw [List.length_cons, List.length_append] at hn
  exact ⟨n - 1, by omega, by omega⟩

/-- **The loop reads the tokens**, given a round for each byte. -/
theorem parseArgs_of_lexed {ts : List (Token UInt8)} (h : Lexed space quote ts s)
    (hn : s.length < n) : parseArgs n s = some (Quoting.args ts) := by
  induction h generalizing n with
  | nil => exact parseArgs_nil n
  | blank _ ih =>
    rw [parseArgs_space, ih (Nat.lt_of_succ_lt hn)]
    rfl
  | quoted ha _ ih =>
    obtain ⟨m, rfl, hm⟩ := length_lt_of_token hn
    rw [parseArgs_quoted ha, ih (Nat.lt_of_succ_lt hm)]
    rfl
  | bare hspace hquote ha hs _ ih =>
    obtain ⟨m, rfl, hm⟩ := length_lt_of_token hn
    rw [parseArgs_bare hspace hquote ha hs, ih hm]
    rfl

/-- **It gives up at a quote that is never closed.** -/
theorem parseArgs_of_unclosed (h : Unclosed space quote s) (hn : s.length < n) :
    parseArgs n s = none := by
  induction h generalizing n with
  | here ha =>
    obtain ⟨m, rfl⟩ : ∃ m, n = m + 1 := ⟨n - 1, by omega⟩
    exact parseArgs_open ha m
  | blank _ ih => rw [parseArgs_space, ih (Nat.lt_of_succ_lt hn)]
  | quoted ha _ ih =>
    obtain ⟨m, rfl, hm⟩ := length_lt_of_token hn
    rw [parseArgs_quoted ha, ih (Nat.lt_of_succ_lt hm), Option.map_none]
  | bare hspace hquote ha hs _ ih =>
    obtain ⟨m, rfl, hm⟩ := length_lt_of_token hn
    rw [parseArgs_bare hspace hquote ha hs, ih hm, Option.map_none]

end ParseArgs

/-! ### The line -/

/-- The byte that a command starts with. -/
def slash : UInt8 := 0x2F

/-- A line is the command name, up to the first blank, and the arguments. -/
theorem parseLine_slash {name s : Str} (hname : space ∉ name) (hs : Ends space s) :
    parseLine (slash :: (name ++ s)) =
      match parseArgs ((name ++ s).length + 2) s with
      | none => .error (text "Unclosed double quote in argument")
      | some args => .ok ⟨name, args⟩ := by
  rw [parseLine, if_neg (by decide), takeWhile_append_of_ends hname hs,
    dropWhile_append_of_ends hname hs]
  rfl

section ParseLine

variable {name s : Str} (hname : space ∉ name) (hs : Ends space s)
include hname hs

theorem parseLine_of_lexed {ts : List (Token UInt8)} (h : Lexed space quote ts s) :
    parseLine (slash :: (name ++ s)) = .ok ⟨name, Quoting.args ts⟩ := by
  rw [parseLine_slash hname hs,
    parseArgs_of_lexed h (by rw [List.length_append]; omega)]

theorem parseLine_of_unclosed (h : Unclosed space quote s) :
    parseLine (slash :: (name ++ s)) = .error (text "Unclosed double quote in argument") := by
  rw [parseLine_slash hname hs,
    parseArgs_of_unclosed h (by rw [List.length_append]; omega)]

end ParseLine

/-! ### Printing a command line -/

/-- An argument with the blanks before it. -/
structure QuotedArg where
  blanks : ℕ
  content : Str
  separated : 0 < blanks
  no_quote : quote ∉ content

/-- The argument up to its closing quote. -/
def QuotedArg.opened (a : QuotedArg) : Str := List.replicate a.blanks space ++ quote :: a.content

/-- The argument as it is typed. -/
def QuotedArg.print (a : QuotedArg) : Str := a.opened ++ [quote]

/-- A command with quoted arguments. -/
structure CommandLine where
  name : Str
  args : List QuotedArg
  /-- The blanks after the last argument. -/
  trailing : ℕ
  no_space : space ∉ name

/-- The line as it is typed. -/
def CommandLine.print (l : CommandLine) : Str :=
  slash :: (l.name ++ (l.args.flatMap QuotedArg.print ++ List.replicate l.trailing space))

/-- The line without the closing quote of its last argument. -/
def CommandLine.unclosed (l : CommandLine) : Str :=
  slash :: (l.name ++ (l.args.dropLast.flatMap QuotedArg.print ++
    (l.args.getLast?.elim [] QuotedArg.opened ++ List.replicate l.trailing space)))

/-- The tokens of an argument. -/
def QuotedArg.tokens (a : QuotedArg) : List (Token UInt8) :=
  List.replicate a.blanks .blank ++ [.quoted a.content]

theorem QuotedArg.allQuoted_tokens (a : QuotedArg) : AllQuoted a.tokens := by
  rintro b hb
  rcases List.mem_append.1 hb with hb | hb
  · exact allQuoted_replicate _ b hb
  · cases List.mem_singleton.1 hb

theorem QuotedArg.lexed_print (a : QuotedArg) : Lexed space quote a.tokens a.print := by
  rw [QuotedArg.print, opened, List.append_assoc]
  exact (lexed_replicate a.blanks).append (allQuoted_replicate _) (.quoted a.no_quote .nil)

theorem allQuoted_flatMap_tokens (as : List QuotedArg) :
    AllQuoted (as.flatMap QuotedArg.tokens) := by
  intro b hb
  obtain ⟨a, -, hb⟩ := List.mem_flatMap.1 hb
  exact a.allQuoted_tokens b hb

theorem lexed_flatMap_print (as : List QuotedArg) :
    Lexed space quote (as.flatMap QuotedArg.tokens) (as.flatMap QuotedArg.print) := by
  induction as with
  | nil => exact .nil
  | cons a as ih => exact a.lexed_print.append a.allQuoted_tokens ih

theorem args_flatMap_tokens (as : List QuotedArg) :
    Quoting.args (as.flatMap QuotedArg.tokens) = as.map QuotedArg.content := by
  induction as with
  | nil => rfl
  | cons a as ih =>
    rw [List.flatMap_cons, QuotedArg.tokens, args_append, args_append, args_replicate_blank, ih]
    rfl

/-- An argument starts with a blank, so it does not run into the name. -/
theorem ends_opened (a : QuotedArg) (s : Str) : Ends space (a.opened ++ s) := by
  obtain ⟨n, hn⟩ : ∃ n, a.blanks = n + 1 := ⟨a.blanks - 1, by have := a.separated; omega⟩
  rw [QuotedArg.opened, hn, List.replicate_succ]
  exact ends_cons space _

theorem ends_replicate (n : ℕ) : Ends space (List.replicate n space) := by
  cases n with
  | zero => exact ends_nil space
  | succ n => exact ends_cons space _

theorem ends_flatMap_print {s : Str} (as : List QuotedArg) (hs : Ends space s) :
    Ends space (as.flatMap QuotedArg.print ++ s) := by
  cases as with
  | nil => exact hs
  | cons a as =>
    rw [List.flatMap_cons, QuotedArg.print, List.append_assoc, List.append_assoc]
    exact ends_opened a _

/-- **A printed command line is read back**, and is an error without its last closing quote. -/
theorem parseLine_print (l : CommandLine) :
    parseLine l.print = .ok ⟨l.name, l.args.map QuotedArg.content⟩ ∧
      (l.args ≠ [] →
        parseLine l.unclosed = .error (text "Unclosed double quote in argument")) := by
  constructor
  · have hlexed := (lexed_flatMap_print l.args).append (allQuoted_flatMap_tokens l.args)
      (lexed_replicate l.trailing)
    have hargs : Quoting.args (l.args.flatMap QuotedArg.tokens ++
      List.replicate l.trailing .blank) =
        l.args.map QuotedArg.content := by
      rw [args_append, args_flatMap_tokens, args_replicate_blank, List.append_nil]
    have hends := ends_flatMap_print l.args (ends_replicate l.trailing)
    rw [CommandLine.print, parseLine_of_lexed l.no_space hends hlexed, hargs]
  · intro hne
    obtain ⟨before, last, hargs⟩ := (List.eq_nil_or_concat l.args).resolve_left hne
    rw [List.concat_eq_append] at hargs
    have hopen : Unclosed space quote (last.opened ++ List.replicate l.trailing space) := by
      have hquote : quote ∉ last.content ++ List.replicate l.trailing space := by
        simp [last.no_quote, space_ne_quote.symm]
      rw [QuotedArg.opened, List.append_assoc]
      exact (lexed_replicate last.blanks).append_unclosed (allQuoted_replicate _) (.here hquote)
    have hunclosed := (lexed_flatMap_print before).append_unclosed
      (allQuoted_flatMap_tokens before) hopen
    have hends := ends_flatMap_print before (ends_opened last (List.replicate l.trailing space))
    have hline : l.unclosed = slash :: (l.name ++ (before.flatMap QuotedArg.print ++
        (last.opened ++ List.replicate l.trailing space))) := by
      rw [CommandLine.unclosed, hargs, List.dropLast_concat, List.getLast?_concat]
      rfl
    rw [hline, parseLine_of_unclosed l.no_space hends hunclosed]

theorem parseLine_print_send :
    ∃ l : CommandLine, l.print = text "/send \"a b\"  \"/\" " ∧
      l.unclosed = text "/send \"a b\"  \"/ " ∧
      parseLine l.print = .ok ⟨text "send", [text "a b", text "/"]⟩ ∧
      parseLine l.unclosed = .error (text "Unclosed double quote in argument") := by
  have hprint := parseLine_print
    ⟨text "send", [⟨1, text "a b", by decide, by decide +kernel⟩,
      ⟨2, text "/", by decide, by decide +kernel⟩], 1, by decide +kernel⟩
  exact ⟨_, by decide +kernel, by decide +kernel, hprint.1, hprint.2 (by simp)⟩

/-! ### Bare arguments -/

/-- The rest of a line after the command name. -/
def argumentPart (line : Str) : Str := line.tail.dropWhile (· != space)

/-- **All values are quoted**: a line that is accepted goes on after its name with blanks and quoted
arguments only, which are the ones it is read with, and any other line is an error. -/
structure OnlyQuoted (line : Str) : Prop where
  accepted : ∀ cmd, parseLine line = .ok cmd → ∃ ts, Lexed space quote ts (argumentPart line) ∧
    AllQuoted ts ∧ cmd.args = Quoting.args ts
  rejected : (∀ ts, Lexed space quote ts (argumentPart line) → ¬ AllQuoted ts) →
    ∃ e, parseLine line = .error e

/-- A command whose quotes are all closed, and one of whose arguments is bare. -/
def HasBareArgument (line : Str) : Prop :=
  line.head? = some slash ∧
    ∃ ts a, Lexed space quote ts (argumentPart line) ∧ Token.bare a ∈ ts

/-- A command is its name and its arguments. -/
theorem exists_name {line : Str} (h : line.head? = some slash) :
    ∃ name, line = slash :: (name ++ argumentPart line) ∧ space ∉ name ∧
      Ends space (argumentPart line) := by
  cases line with
  | nil => cases h
  | cons b rest =>
    obtain rfl := Option.some.inj h
    obtain ⟨name, s, rfl, hname, hs⟩ := exists_append_ends space rest
    have hargs : argumentPart (slash :: (name ++ s)) = s := dropWhile_append_of_ends hname hs
    rw [hargs]
    exact ⟨name, rfl, hname, hs⟩

/-- What is accepted has tokens, which are what it is read with. -/
theorem lexed_of_parseLine {line : Str} {cmd : ParsedCommand} (h : parseLine line = .ok cmd) :
    line.head? = some slash ∧
      ∃ ts, Lexed space quote ts (argumentPart line) ∧ cmd.args = Quoting.args ts := by
  have hslash : line.head? = some slash := by
    cases line with
    | nil => cases h
    | cons b rest =>
      rw [parseLine] at h
      split_ifs at h with hb
      exact congrArg some (not_not.1 hb)
  obtain ⟨name, hline, hname, hends⟩ := exists_name hslash
  refine ⟨hslash, ?_⟩
  rw [hline] at h
  obtain ⟨ts, hts⟩ | hopen := lexed_or_unclosed space quote (argumentPart line)
  · rw [parseLine_of_lexed hname hends hts] at h
    obtain rfl := Except.ok.inj h
    exact ⟨ts, hts, rfl⟩
  · rw [parseLine_of_unclosed hname hends hopen] at h
    cases h

/-- A bare argument is accepted. -/
theorem HasBareArgument.not_onlyQuoted {line : Str} (h : HasBareArgument line) :
    ¬ OnlyQuoted line := by
  intro honly
  obtain ⟨hslash, ts, a, hts, hbare⟩ := h
  obtain ⟨name, hline, hname, hends⟩ := exists_name hslash
  have hparse := parseLine_of_lexed hname hends hts
  rw [← hline] at hparse
  obtain ⟨us, hus, hquoted, -⟩ := honly.accepted _ hparse
  rw [hts.unique space_ne_quote hus] at hbare
  exact hquoted a hbare

/-- **Values are checked to be quoted exactly in the lines without a bare argument.** -/
theorem onlyQuoted_iff (line : Str) : OnlyQuoted line ↔ ¬ HasBareArgument line := by
  constructor
  · exact fun honly hbare ↦ hbare.not_onlyQuoted honly
  · intro hnot
    have haccepted (cmd : ParsedCommand) (h : parseLine line = .ok cmd) :
        ∃ ts, Lexed space quote ts (argumentPart line) ∧ AllQuoted ts ∧
          cmd.args = Quoting.args ts := by
      obtain ⟨hslash, ts, hts, hargs⟩ := lexed_of_parseLine h
      exact ⟨ts, hts, fun a ha ↦ hnot ⟨hslash, ts, a, hts, ha⟩, hargs⟩
    refine ⟨haccepted, fun hnone ↦ ?_⟩
    cases hparse : parseLine line with
    | error e => exact ⟨e, rfl⟩
    | ok cmd =>
      obtain ⟨ts, hts, hquoted, -⟩ := haccepted cmd hparse
      exact absurd hquoted (hnone ts hts)

/-- The login without quotes, which the documentation rules out. -/
theorem not_onlyQuoted_login :
    parseLine (text "/login alice") = .ok ⟨text "login", [text "alice"]⟩ ∧
      ¬ OnlyQuoted (text "/login alice") := by
  have hargs : argumentPart (text "/login alice") = space :: 0x61 :: (text "lice" ++ []) := by
    decide +kernel
  have hlexed : Lexed space quote [.blank, .bare (0x61 :: text "lice")]
      (argumentPart (text "/login alice")) := by
    rw [hargs]
    exact .blank (.bare (by decide) (by decide) (by decide +kernel) (ends_nil space) .nil)
  have hbare : HasBareArgument (text "/login alice") :=
    ⟨by decide +kernel, _, 0x61 :: text "lice", hlexed, by simp⟩
  exact ⟨by decide +kernel, hbare.not_onlyQuoted⟩

end MyTeams
