import Dbmaster.SqlSplit.Engine
import Dbmaster.SqlSplit.FailClosed
/-!
# What the whitelist guarantees

The whitelist looks at the start of each statement that the splitter finds.  It
guarantees what the target runs where the splitter keeps no `;` that ends a
statement for the target, and only there.
-/

namespace Dbmaster.SqlSplit.DdlSoundness

open Dbmaster.Lib Dbmaster.SqlSplit.Splitter Dbmaster.SqlSplit.DdlWhitelist
open Dbmaster.SqlSplit.Engine
open Dbmaster.SqlSplit.Fragments (mem_flush_iff trim_of_mem_splitSqlScript)
open Dbmaster.SqlSplit.FailClosed (Reachable guarded execute_guarded execute_unreachable)

variable (rules : Rules)

/-! ## Semicolons kept in the buffer -/

/-- Some `;` of the text, after this buffer, ends a statement for the engine. -/
def keepsEnd (buf : List Char) : List Char → Bool
  | [] => false
  | c :: text =>
      (c == ';' && rules.ends (Text.trimStart buf)) || keepsEnd (buf ++ [c]) text

/-- No `;` of the text ends a statement for the engine. -/
def Whole (text : List Char) : Prop :=
  ∀ part, part ++ [';'] <+: text → rules.ends (Text.trimStart part) = false

theorem keepsEnd_eq_false_iff (buf text : List Char) :
    keepsEnd rules buf text = false ↔
      ∀ part, part ++ [';'] <+: text → rules.ends (Text.trimStart (buf ++ part)) = false := by
  induction text generalizing buf with
  | nil => simp [keepsEnd]
  | cons c text ih =>
      simp only [keepsEnd, Bool.or_eq_false_iff, ih, List.append_assoc]
      constructor
      · rintro ⟨hnow, hlater⟩ part hpart
        cases part with
        | nil =>
            obtain ⟨rfl, -⟩ : ';' = c ∧ [] <+: text := List.cons_prefix_cons.mp hpart
            rw [List.append_nil]
            simpa using hnow
        | cons d part =>
            obtain ⟨rfl, htail⟩ : d = c ∧ part ++ [';'] <+: text :=
              List.cons_prefix_cons.mp hpart
            exact hlater part htail
      · intro h
        constructor
        · by_cases hc : c = ';'
          · have hfirst := h [] (by simp [hc])
            rw [List.append_nil] at hfirst
            rw [hfirst, Bool.and_false]
          · simp [hc]
        · intro part hpart
          exact h (c :: part) (List.cons_prefix_cons.mpr ⟨rfl, hpart⟩)

theorem whole_nil : Whole rules [] := by
  intro part hpart
  simp at hpart

theorem whole_append (buf text : List Char) :
    Whole rules (buf ++ text) ↔ Whole rules buf ∧ keepsEnd rules buf text = false := by
  rw [keepsEnd_eq_false_iff]
  constructor
  · intro h
    refine ⟨fun part hpart => h part (hpart.trans (List.prefix_append _ _)), ?_⟩
    intro part hpart
    apply h
    rw [List.append_assoc]
    exact (List.prefix_append_right_inj buf).mpr hpart
  · rintro ⟨hbuf, htext⟩ part hpart
    rcases List.prefix_or_prefix_of_prefix hpart (List.prefix_append buf text) with
      hin | ⟨tail, htail⟩
    · exact hbuf part hin
    · rcases List.eq_nil_or_concat tail with rfl | ⟨more, last, rfl⟩
      · apply hbuf
        rw [← htail, List.append_nil]
      · rw [List.concat_eq_append, ← List.append_assoc] at htail
        obtain ⟨rfl, hlast⟩ := List.append_inj' htail rfl
        apply htext
        rw [← List.prefix_append_right_inj buf, ← List.append_assoc]
        exact hpart

theorem whole_trim (buf : List Char) : Whole rules (Text.trim buf) ↔ Whole rules buf := by
  constructor
  · intro h part hpart
    have hkept := Text.concat_isPart_trim (by decide) hpart
    have hends := h _ hkept
    rwa [Text.trimStart_of_part (List.prefix_refl (Text.trimStart part))] at hends
  · intro h part hpart
    obtain ⟨blank, hblank, hbuf⟩ := Text.exists_blank_append buf
    have hends := h (blank ++ part) (by
      rw [hbuf, List.append_assoc, List.prefix_append_right_inj]
      exact hpart.trans (Text.trim_isPart buf))
    rwa [Text.trimStart_append_of_blank hblank] at hends

theorem keepsEnd_of_no_semicolon {buf text : List Char} (h : ';' ∉ text) :
    keepsEnd rules buf text = false := by
  rw [keepsEnd_eq_false_iff]
  intro part hpart
  exact absurd (hpart.subset (by simp)) h

theorem whole_of_isBlank {buf : List Char} (h : isBlank buf = true) : Whole rules buf := by
  rw [← whole_trim, beq_iff_eq.mp h]
  exact whole_nil rules

theorem no_semicolon_of_matchKeyword {alphanumeric : Char → Bool} {kw : String}
    {chars : List Char} (h : matchKeyword alphanumeric kw chars = true) (hkw : ';' ∉ kw.toList) :
    ';' ∉ chars.take kw.length := by
  intro hmem
  simp only [matchKeyword, Bool.and_eq_true, beq_iff_eq] at h
  apply hkw
  rw [← h.1]
  exact List.mem_map.mpr ⟨';', hmem, by decide⟩

/-! ## Where the splitter strays from the engine -/

/-- The whitelist takes the text for one statement that begins with a keyword, and
the engine does not. -/
def flawed (text : List Char) : Bool := rules.runsOn text || rules.startsInside text

/-- Outside quotes, the next turn of the loop keeps a `;` that ends a statement for
the engine, or ends a flawed statement. -/
def straysPlain (alphanumeric : Char → Bool) (s : State) (c : Char) : Bool :=
  if isLineCommentStart s.rest then keepsEnd rules s.buf (s.rest.takeWhile (· != '\n'))
  else if isBlockCommentStart s.rest then
    keepsEnd rules s.buf (s.rest.take 2 ++ (blockTail (s.rest.drop 2)).1)
  else if isQuoteStart c then false
  else if isBlank s.buf && matchesDelimiterDirective alphanumeric s.rest then false
  else if matchKeyword alphanumeric "BEGIN" s.rest then false
  else if matchesStr s.rest s.delimiter then
    -- in a compound body, or the end of a statement
    if 0 < s.beginDepth then keepsEnd rules s.buf s.delimiter
    else flawed rules (Text.trim s.buf)
  else if decide (0 < s.beginDepth) && matchKeyword alphanumeric "END" s.rest &&
      endCloses s.delimiter s.rest then false
  else keepsEnd rules s.buf [c]

/-- The same of any turn, and of the end of the script. -/
def strays (alphanumeric : Char → Bool) (s : State) : Bool :=
  match s.rest with
  | [] => flawed rules (Text.trim s.buf)
  | c :: rest =>
    match s.inQuote with
    | some _ => keepsEnd rules s.buf (if c = '\\' then c :: rest.take 1 else [c])
    | none => straysPlain rules alphanumeric s c

/-- No turn of the loop over the script strays. -/
def Agrees (alphanumeric : Char → Bool) (script : List Char) : Prop :=
  (splitter alphanumeric).Avoids (strays rules alphanumeric) (start script)

instance (alphanumeric : Char → Bool) (script : List Char) :
    Decidable (Agrees rules alphanumeric script) :=
  inferInstanceAs (Decidable (_ = true))

/-- What a turn does to the buffer and the statements. -/
inductive Turned (strays : Bool) (s s' : State) : Prop
  | grows (text : List Char) (hbuf : s'.buf = s.buf ++ text)
      (hstatements : s'.statements = s.statements)
      (hkept : keepsEnd rules s.buf text = strays) : Turned strays s s'
  | clears (hblank : isBlank s.buf = true) (hbuf : s'.buf = [])
      (hstatements : s'.statements = s.statements) (hkept : strays = false) :
      Turned strays s s'
  | cuts (hbuf : s'.buf = []) (hstatements : s'.statements = s.statements ++ flush s.buf)
      (hflawed : flawed rules (Text.trim s.buf) = strays) : Turned strays s s'

section Turns

variable {rules} {alphanumeric : Char → Bool} {s : State}

theorem turned_quoted (q c : Char) (rest : List Char) :
    Turned rules (keepsEnd rules s.buf (if c = '\\' then c :: rest.take 1 else [c])) s
      (stepQuoted s q c rest) := by
  by_cases hc : c = '\\'
  · rw [if_pos hc, hc]
    cases rest with
    | nil => exact .grows _ rfl rfl rfl
    | cons escaped rest => exact .grows _ rfl rfl rfl
  · have hstep : stepQuoted s q c rest =
        { s with rest := rest, buf := s.buf ++ [c], inQuote := if c = q then none else some q } := by
      unfold stepQuoted
      split
      case h_1 => exact absurd rfl hc
      case h_2 => rfl
    rw [if_neg hc, hstep]
    exact .grows _ rfl rfl rfl

theorem turned_keyword {kw : String} {depth : Nat}
    (h : matchKeyword alphanumeric kw s.rest = true) (hkw : ';' ∉ kw.toList) :
    Turned rules false s (stepKeyword s kw.length depth) :=
  .grows _ rfl rfl (keepsEnd_of_no_semicolon rules (no_semicolon_of_matchKeyword h hkw))

theorem turned_terminator :
    Turned rules
      (if 0 < s.beginDepth then keepsEnd rules s.buf s.delimiter
        else flawed rules (Text.trim s.buf)) s (stepTerminator s) := by
  unfold stepTerminator
  by_cases hdepth : 0 < s.beginDepth
  · rw [if_pos hdepth, if_pos hdepth]
    exact .grows _ rfl rfl rfl
  · rw [if_neg hdepth, if_neg hdepth]
    exact .cuts rfl rfl rfl

theorem turned_directive (hblank : isBlank s.buf = true) :
    Turned rules false s (stepDirective s) := by
  unfold stepDirective
  split
  · exact .clears hblank rfl rfl rfl
  · exact .clears hblank rfl rfl rfl

theorem turned_plain (c : Char) (rest : List Char) :
    Turned rules (straysPlain rules alphanumeric s c) s (stepPlain alphanumeric s c rest) := by
  unfold straysPlain stepPlain
  by_cases hline : isLineCommentStart s.rest = true
  · rw [if_pos hline, if_pos hline]
    exact .grows _ rfl rfl rfl
  rw [if_neg hline, if_neg hline]
  by_cases hblock : isBlockCommentStart s.rest = true
  · rw [if_pos hblock, if_pos hblock]
    exact .grows _ (List.append_assoc _ _ _) rfl rfl
  rw [if_neg hblock, if_neg hblock]
  by_cases hquote : isQuoteStart c = true
  · rw [if_pos hquote, if_pos hquote]
    have hc : ';' ∉ [c] := by
      intro hmem
      obtain rfl := List.mem_singleton.mp hmem
      cases hquote
    exact .grows [c] rfl rfl (keepsEnd_of_no_semicolon rules hc)
  rw [if_neg hquote, if_neg hquote]
  by_cases hdirective : (isBlank s.buf && matchesDelimiterDirective alphanumeric s.rest) = true
  · rw [if_pos hdirective, if_pos hdirective]
    exact turned_directive (Bool.and_eq_true_iff.mp hdirective).1
  rw [if_neg hdirective, if_neg hdirective]
  by_cases hbegin : matchKeyword alphanumeric "BEGIN" s.rest = true
  · rw [if_pos hbegin, if_pos hbegin]
    exact turned_keyword hbegin (by decide)
  rw [if_neg hbegin, if_neg hbegin]
  by_cases hterminator : matchesStr s.rest s.delimiter = true
  · rw [if_pos hterminator, if_pos hterminator]
    exact turned_terminator
  rw [if_neg hterminator, if_neg hterminator]
  by_cases hend : (decide (0 < s.beginDepth) && matchKeyword alphanumeric "END" s.rest &&
      endCloses s.delimiter s.rest) = true
  · rw [if_pos hend, if_pos hend]
    simp only [Bool.and_eq_true] at hend
    exact turned_keyword hend.1.2 (by decide)
  rw [if_neg hend, if_neg hend]
  exact .grows [c] rfl rfl rfl

theorem turned_step (hrest : s.rest ≠ []) :
    Turned rules (strays rules alphanumeric s) s (step alphanumeric s) := by
  obtain ⟨c, rest, hcons⟩ := List.exists_cons_of_ne_nil hrest
  cases hquote : s.inQuote with
  | some q =>
      simp only [strays, step, hcons, hquote]
      exact turned_quoted q c rest
  | none =>
      simp only [strays, step, hcons, hquote]
      exact turned_plain c rest

end Turns

/-! ## Whole scripts -/

/-- The engine takes the text for one statement, and one that begins with a keyword
if the whitelist says so. -/
def Single (text : List Char) : Prop := Whole rules text ∧ flawed rules text = false

/-- Nothing that has been read so far is amiss. -/
structure Sealed (s : State) : Prop where
  buf : Whole rules s.buf
  statements : ∀ text ∈ s.statements, Single rules text

/-- Something that has been read is, and will be when the script ends. -/
def Exposed (s : State) : Prop :=
  ¬ Whole rules s.buf ∨ ∃ text ∈ s.statements, ¬ Single rules text

section Runs

variable {rules} {alphanumeric : Char → Bool} {s s' : State} {stray : Bool}

theorem single_of_mem_flush {buf text : List Char} (hbuf : Whole rules buf)
    (hflawed : flawed rules (Text.trim buf) = false) (h : text ∈ flush buf) :
    Single rules text := by
  obtain ⟨rfl, -⟩ := mem_flush_iff.mp h
  exact ⟨(whole_trim rules buf).mpr hbuf, hflawed⟩

theorem exists_mem_flush {buf : List Char}
    (h : ¬ Whole rules buf ∨ flawed rules (Text.trim buf) = true) :
    ∃ text ∈ flush buf, ¬ Single rules text := by
  have hnot : ¬ Single rules (Text.trim buf) := by
    rintro ⟨hwhole, hflawed⟩
    rcases h with hbuf | htrue
    · exact hbuf ((whole_trim rules buf).mp hwhole)
    · rw [hflawed] at htrue
      cases htrue
  have hne : Text.trim buf ≠ [] := by
    intro hempty
    apply hnot
    rw [hempty]
    exact ⟨whole_nil rules, by rfl⟩
  exact ⟨Text.trim buf, mem_flush_iff.mpr ⟨rfl, hne⟩, hnot⟩

theorem Sealed.turned (h : Sealed rules s) (hturn : Turned rules false s s') :
    Sealed rules s' := by
  cases hturn with
  | grows text hbuf hstatements hkept =>
      refine ⟨?_, hstatements ▸ h.statements⟩
      rw [hbuf, whole_append]
      exact ⟨h.buf, hkept⟩
  | clears hblank hbuf hstatements hkept =>
      refine ⟨?_, hstatements ▸ h.statements⟩
      rw [hbuf]
      exact whole_nil rules
  | cuts hbuf hstatements hflawed =>
      constructor
      · rw [hbuf]
        exact whole_nil rules
      · intro text htext
        rw [hstatements, List.mem_append] at htext
        rcases htext with hbefore | hnow
        · exact h.statements text hbefore
        · exact single_of_mem_flush h.buf hflawed hnow

theorem Exposed.turned (h : Exposed rules s) (hturn : Turned rules stray s s') :
    Exposed rules s' := by
  cases hturn with
  | grows text hbuf hstatements hkept =>
      rw [Exposed, hbuf, hstatements, whole_append]
      rcases h with hnow | hbefore
      · exact .inl fun hwhole => hnow hwhole.1
      · exact .inr hbefore
  | clears hblank hbuf hstatements hkept =>
      rw [Exposed, hstatements]
      rcases h with hnow | hbefore
      · exact absurd (whole_of_isBlank rules hblank) hnow
      · exact .inr hbefore
  | cuts hbuf hstatements hflawed =>
      right
      rw [hstatements]
      rcases h with hnow | ⟨text, htext, hnot⟩
      · obtain ⟨text, htext, hnot⟩ := exists_mem_flush (.inl hnow)
        exact ⟨text, List.mem_append_right _ htext, hnot⟩
      · exact ⟨text, List.mem_append_left _ htext, hnot⟩

theorem exposed_of_turned (hturn : Turned rules true s s') : Exposed rules s' := by
  cases hturn with
  | grows text hbuf hstatements hkept =>
      left
      rw [hbuf, whole_append, hkept]
      rintro ⟨-, hfalse⟩
      cases hfalse
  | clears hblank hbuf hstatements hkept => cases hkept
  | cuts hbuf hstatements hflawed =>
      right
      obtain ⟨text, htext, hnot⟩ := exists_mem_flush (.inr hflawed)
      rw [hstatements]
      exact ⟨text, List.mem_append_right _ htext, hnot⟩

theorem Exposed.exists_mem_output (h : Exposed rules s) : ∃ text ∈ s.output, ¬ Single rules text := by
  rcases h with hnow | ⟨text, htext, hnot⟩
  · obtain ⟨text, htext, hnot⟩ := exists_mem_flush (.inl hnow)
    exact ⟨text, List.mem_append_right _ htext, hnot⟩
  · exact ⟨text, List.mem_append_left _ htext, hnot⟩

theorem strays_of_rest_nil (h : s.rest = []) :
    strays rules alphanumeric s = flawed rules (Text.trim s.buf) := by
  simp only [strays, h]

theorem exists_of_strays (h : strays rules alphanumeric s = true) :
    ∃ text ∈ ((splitter alphanumeric).finish s).output, ¬ Single rules text := by
  by_cases hrest : s.rest = []
  · have hfinish : (splitter alphanumeric).finish s = s := by
      unfold Scan.Scanner.finish
      rw [show (splitter alphanumeric).rest s = [] from hrest]
      rfl
    rw [hfinish]
    rw [strays_of_rest_nil hrest] at h
    obtain ⟨text, htext, hnot⟩ := exists_mem_flush (.inr h)
    exact ⟨text, List.mem_append_right _ htext, hnot⟩
  · have hexposed : Exposed rules (step alphanumeric s) := exposed_of_turned (h ▸ turned_step hrest)
    have hfinish : (splitter alphanumeric).finish (step alphanumeric s) =
        (splitter alphanumeric).finish s := (splitter alphanumeric).finish_iterate 1 s
    rw [← hfinish]
    apply Exposed.exists_mem_output
    apply (splitter alphanumeric).finish_invariant _ hexposed
    intro s' hrest' hs'
    exact hs'.turned (turned_step hrest')

end Runs

/-- The loop agrees with the engine exactly when all the statements it finds are
single ones. -/
theorem agrees_iff (alphanumeric : Char → Bool) (script : List Char) :
    Agrees rules alphanumeric script ↔
      ∀ text ∈ splitSqlScript alphanumeric script, Single rules text := by
  constructor
  · intro h text htext
    have hsealed : Sealed rules ((splitter alphanumeric).finish (start script)) := by
      apply (splitter alphanumeric).finish_invariant_of_avoids _ h
      · exact ⟨whole_nil rules, nofun⟩
      · intro s hrest hstrays hs
        exact hs.turned (hstrays ▸ turned_step hrest)
    have hfinal : strays rules alphanumeric ((splitter alphanumeric).finish (start script)) =
        false := (splitter alphanumeric).avoids_iff.mp h _
    rw [strays_of_rest_nil ((splitter alphanumeric).rest_finish _)] at hfinal
    rcases List.mem_append.mp htext with hbefore | hnow
    · exact hsealed.statements text hbefore
    · exact single_of_mem_flush hsealed.buf hfinal hnow
  · intro h
    rw [Agrees, Scan.Scanner.avoids_iff]
    intro n
    by_contra hstrays
    rw [Bool.not_eq_false] at hstrays
    obtain ⟨text, htext, hnot⟩ := exists_of_strays hstrays
    have hfinish := (splitter alphanumeric).finish_iterate n (start script)
    change text ∈ ((splitter alphanumeric).finish
      ((splitter alphanumeric).step^[n] (start script))).output at htext
    rw [hfinish] at htext
    exact hnot (h text htext)

/-! ## The target -/

theorem unbroken_of_single {text : List Char} (htrim : Text.trim text = text)
    (h : Single rules text) : rules.cutter.Unbroken text := by
  obtain ⟨hwhole, hflawed⟩ := h
  rw [flawed, Bool.or_eq_false_iff] at hflawed
  intro read x hread
  have hpart : read <+: Text.trimStart text := by
    have htext : read <+: text := (List.prefix_append read [x]).trans hread
    rw [← htrim] at htext
    exact htext.trans (Text.trim_isPart text)
  have hends : (x == ';' && rules.ends read) = false := by
    by_cases hx : x = ';'
    · have hno := hwhole read (hx ▸ hread)
      rw [Text.trimStart_of_part hpart] at hno
      rw [hno, Bool.and_false]
    · simp [hx]
  have hstarts : (rules.starts (read ++ [x])).isSome = false := by
    have htake : text.take (read.length + 1) = read ++ [x] := by
      have hlength : (read ++ [x]).length = read.length + 1 := by simp
      rw [← hlength]
      exact (List.prefix_iff_eq_take.mp hread).symm
    have hlt : read.length < text.length := by
      have hle := hread.length_le
      rw [List.length_append, List.length_singleton] at hle
      omega
    have hno := List.any_eq_false.mp hflawed.2 read.length (List.mem_range.mpr hlt)
    rw [htake] at hno
    simpa using hno
  simp only [Pieces.Cutter.breaks, Rules.cutter, List.getLast?_concat, List.dropLast_concat]
  rw [hstarts, Bool.or_false]
  simpa using hends

/-- The script gets past the guards on the connection. -/
def Opens (env : Environment) : Prop := Reachable env ∧ guarded env = false

theorem opens_of_sent {alphanumeric : Char → Bool} {env : Environment}
    {ddlSql text : List Char} (h : text ∈ (executeDdlOnTargetWithKey alphanumeric env ddlSql).sent) :
    Opens env := by
  constructor
  · by_contra hreach
    rw [(execute_unreachable hreach).1] at h
    cases h
  · by_contra hguard
    rw [execute_guarded (Bool.not_eq_false _ ▸ hguard)] at h
    cases h

/-- Where the loop agrees with the target engine on what gets past the guards, the target
runs DDL only. -/
theorem sent_ddlOnly (alphanumeric : Char → Bool) (env : Environment) (ddlSql : List Char)
    (h : Opens env → Agrees rules alphanumeric ddlSql) :
    DdlOnly rules (executeDdlOnTargetWithKey alphanumeric env ddlSql).sent := by
  intro text htext stmt hstmt
  replace h := h (opens_of_sent htext)
  obtain ⟨hmem, hddl⟩ := mem_sent htext
  obtain ⟨found, hfound, rfl⟩ := List.mem_map.mp hmem
  have htrim : Text.trim found = found := trim_of_mem_splitSqlScript hfound
  rw [htrim] at hstmt hddl
  have hsingle : Single rules found := (agrees_iff rules alphanumeric ddlSql).mp h found hfound
  have hpieces := rules.cutter.pieces_of_unbroken (unbroken_of_single rules htrim hsingle)
  rw [Rules.statements, hpieces] at hstmt
  obtain rfl := List.mem_singleton.mp (List.mem_of_mem_filter hstmt)
  have hstart : Text.trimStart stmt = stmt := by
    rw [← htrim]
    exact Text.trimStart_of_part (Text.trim_isPart stmt)
  have hruns := hsingle.2
  rw [flawed, Bool.or_eq_false_iff] at hruns
  exact beginsWithDdl_of_isDdlStatement rules hstart hddl hruns.1

/-! ## Engines -/

/-- What an open target is sent. -/
def sentTo (dbType script : String) : List (List Char) :=
  (executeDdlOnTargetWithKey Char.isAlphanum ⟨.ok dbType, none, fun _ _ => .ok ()⟩
    script.toList).sent

theorem sent_ddlOnly_mysql :
    DdlOnly mysql (sentTo "mysql" "CREATE TABLE a (b INT COMMENT 'c;d'); DROP TABLE e") :=
  sent_ddlOnly mysql _ _ _ fun _ => by decide +kernel

/-- A backslash before a quote, `#` in a name, statements without `;`, a longer first
word, a column named `begin` and a delimiter directive. -/
theorem sent_not_ddlOnly :
    ¬ DdlOnly postgres
        (sentTo "postgres" "CREATE TABLE a (b TEXT DEFAULT '\\'); DELETE FROM c; --')") ∧
      ¬ DdlOnly sqlServer (sentTo "mssql" "CREATE TABLE #a (b INT); DELETE FROM c") ∧
      ¬ DdlOnly sqlServer (sentTo "mssql" "DROP TABLE a DELETE FROM c") ∧
      ¬ DdlOnly sqlServer (sentTo "mssql" "DROPaudit") ∧
      ¬ DdlOnly mysql (sentTo "mysql" "CREATE TABLE a (begin INT); DELETE FROM c") ∧
      ¬ DdlOnly mysql (sentTo "mysql" "DELIMITER $\nDROP TABLE a; DELETE FROM c$") := by
  decide +kernel

end Dbmaster.SqlSplit.DdlSoundness
