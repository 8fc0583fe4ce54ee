import CompanyRegister.Proofs.Store.Tokens
import CompanyRegister.Proofs.Store.Upgrade
import CompanyRegister.Proofs.Text.Pieces
import CompanyRegister.Schema.Entity

/-!
# Scripts that are read back

The text of a table definition is a script, and to read it gives the definition back
(`TableDefinition.read_text`): the statement that makes the table with all its columns, and one
statement for each index. Names and literals have to be words, since nothing in the text is put into
quotes. So to execute the text on a database without a table is to make the table that the
definition describes (`TableDefinition.run_text`), and the same holds of the statements of an entity
(`Entity.run_ddl`).

The migrations are scripts of another layout, and these make the changes that the migrations are
made of (`Migration.script_companyList`, `Migration.script_companyGroup`).
-/

namespace CompanyRegister

namespace Store

open Script Text

/-! ## Columns -/

def Presence.tokens : Presence → List Token
  | primaryKey => [.word "PRIMARY", .word "KEY"]
  | nullable => [.word "NULL"]
  | required => [.word "NOT", .word "NULL"]

def Default.tokens : Default → List Token
  | literal sql => [.word "DEFAULT", .word sql]
  | now => [.word "DEFAULT", .group "strftime('%Y-%m-%dT%H:%M:%fZ', 'now')".toList]

namespace Check

/-- The tokens of the condition that a check puts on a column. -/
def conditionTokens (column : String) : Check → List Token
  | between low high =>
    [.word column, .word "IS", .word "NULL", .word "OR", .word column, .word "BETWEEN",
      .word (String.ofList (signed low)), .word "AND", .word (String.ofList (signed high))]
  | maxLength n =>
    [.word column, .word "IS", .word "NULL", .word "OR", .word "length", .group column.toList,
      .word "<=", .word (String.ofList (digits n))]

def tokens (column : String) (k : Check) : List Token :=
  [.word "CHECK", .group (k.text column.toList)]

variable {column : String} (h : isName column = true) (k : Check)
include h

theorem reads_condition : Reads (k.text column.toList) (k.conditionTokens column) := by
  cases k with
  | between low high =>
    have htext : (between low high).text column.toList = [' '].intercalate [column.toList,
        "IS".toList, "NULL".toList, "OR".toList, column.toList, "BETWEEN".toList, signed low,
        "AND".toList, signed high] := by
      simp [text]
    rw [htext]
    exact .intercalate (.cons (.name h) (.cons (.keyword rfl) (.cons (.keyword rfl)
      (.cons (.keyword rfl) (.cons (.name h) (.cons (.keyword rfl)
      (.cons (.word (isWord_signed low)) (.cons (.keyword rfl)
      (.cons (.word (isWord_signed high)) .nil)))))))))
  | maxLength n =>
    have htext : (maxLength n).text column.toList = [' '].intercalate [column.toList,
        "IS".toList, "NULL".toList, "OR".toList,
        "length".toList ++ '(' :: (column.toList ++ [')']), "<=".toList, digits n] := by
      simp [text]
    have hsign : IsWord "<=".toList :=
      ⟨by decide, List.all_eq_true.mp (by decide), by simp⟩
    rw [htext]
    exact .intercalate (.cons (.name h) (.cons (.keyword rfl) (.cons (.keyword rfl)
      (.cons (.keyword rfl) (.cons ((Reads.keyword rfl).append_group (Reads.name h).enclosed)
      (.cons (.word hsign) (.cons (.word (isWord_digits n)) .nil)))))))

theorem reads : Reads ("CHECK (".toList ++ k.text column.toList ++ [')']) (k.tokens column) := by
  have htext : "CHECK (".toList ++ k.text column.toList ++ [')'] =
      "CHECK".toList ++ ' ' :: '(' :: (k.text column.toList ++ [')']) := by
    simp
  rw [htext]
  exact (Reads.keyword rfl).append_blank (.group (k.reads_condition h).enclosed)

theorem check?_text : check? column.toList (k.text column.toList) = some k := by
  have hread : checkOf? (Script.tokens (k.text column.toList)) = some k := by
    rw [(k.reads_condition h).spells.tokens_eq]
    cases k with
    | between low high => simp [conditionTokens, checkOf?, whole?_signed]
    | maxLength n => simp [conditionTokens, checkOf?, natural?_digits]
  rw [check?, hread]
  simp

end Check

theorem Presence.reads (p : Presence) : Reads p.text.toList p.tokens := by
  cases p with
  | primaryKey =>
    exact (Reads.keyword (w := "PRIMARY") rfl).append_blank (.keyword (w := "KEY") rfl)
  | nullable => exact .keyword rfl
  | required => exact (Reads.keyword (w := "NOT") rfl).append_blank (.keyword (w := "NULL") rfl)

/-- The text of the current time, without the parentheses around it. -/
theorem enclosed_now : Enclosed "strftime('%Y-%m-%dT%H:%M:%fZ', 'now')".toList := by
  have htext : "strftime('%Y-%m-%dT%H:%M:%fZ', 'now')".toList = "strftime".toList ++ '(' ::
      ((('\'' :: ("%Y-%m-%dT%H:%M:%fZ".toList ++ ['\''])) ++ (", ".toList ++
        ('\'' :: ("now".toList ++ ['\''])))) ++ [')']) := by
    simp
  have hname : Enclosed "strftime".toList := (Reads.keyword (w := "strftime") rfl).enclosed
  have hcomma : Enclosed ", ".toList := .chars (by decide)
  rw [htext]
  exact hname.append (.paren ((Enclosed.quoted (by decide)).append
    (hcomma.append (.quoted (by decide)))))

namespace Default

variable {d : Default}

theorem reads (h : ∀ sql, d = literal sql → IsWord sql.toList) :
    Reads ("DEFAULT ".toList ++ d.text.toList) d.tokens := by
  cases d with
  | literal sql =>
    have hsql := Reads.word (h sql rfl)
    have htext : "DEFAULT ".toList ++ (literal sql).text.toList =
        "DEFAULT".toList ++ ' ' :: sql.toList := by
      simp [text]
    rw [String.ofList_toList] at hsql
    rw [htext]
    exact (Reads.keyword (w := "DEFAULT") rfl).append_blank hsql
  | now =>
    have htext : "DEFAULT ".toList ++ now.text.toList = "DEFAULT".toList ++ ' ' :: '(' ::
        ("strftime('%Y-%m-%dT%H:%M:%fZ', 'now')".toList ++ [')']) := by
      simp [text, nowExpression]
    rw [htext]
    exact (Reads.keyword (w := "DEFAULT") rfl).append_blank (.group enclosed_now)

end Default

namespace Column

/-- The tokens of the definition of a column. -/
def tokens (c : Column) : List Token :=
  .word c.name :: .word c.affinity.name :: (c.presence.tokens ++
    (c.default.toList.flatMap Default.tokens ++ c.checks.flatMap (Check.tokens c.name)))

/-- Whether a column can be defined without quotes. -/
structure IsPlain (c : Column) : Prop where
  name : isName c.name = true
  literal : ∀ sql, c.default = some (.literal sql) → IsWord sql.toList

variable {c : Column}

theorem reads (h : c.IsPlain) : Reads c.text c.tokens := by
  have hdefault : List.Forall₂ Reads
      (c.default.toList.map fun d => "DEFAULT ".toList ++ d.text.toList)
      (c.default.toList.map Default.tokens) := by
    rw [List.forall₂_map_left_iff, List.forall₂_map_right_iff, List.forall₂_same]
    intro d hd
    refine Default.reads fun sql hsql => h.literal sql ?_
    rw [← hsql]
    exact Option.mem_toList.mp hd
  have hchecks : List.Forall₂ Reads
      (c.checks.map fun k => "CHECK (".toList ++ k.text c.name.toList ++ [')'])
      (c.checks.map (Check.tokens c.name)) := by
    rw [List.forall₂_map_left_iff, List.forall₂_map_right_iff, List.forall₂_same]
    exact fun k _ => k.reads h.name
  have haffinity : Reads c.affinity.name.toList [.word c.affinity.name] := by
    cases c.affinity <;> exact .keyword rfl
  have hall := Reads.intercalate (.cons (.name h.name) (.cons haffinity (.cons c.presence.reads
    (List.rel_append hdefault hchecks))))
  have htokens : c.tokens = ([.word c.name] :: [.word c.affinity.name] :: c.presence.tokens ::
      (c.default.toList.map Default.tokens ++ c.checks.map (Check.tokens c.name))).flatten := by
    simp [tokens, List.flatMap_def]
  rw [htokens]
  exact hall

theorem affinity?_name (a : Affinity) : affinity? a.name = some a := by
  cases a <;> rfl

theorem takePresence_tokens (p : Presence) (rest : List Token) :
    takePresence (p.tokens ++ rest) = (p, rest) := by
  cases p <;> simp [Presence.tokens, takePresence]

theorem takeDefault?_tokens (d : Option Default) (column : String) (ks : List Check) :
    takeDefault? (d.toList.flatMap Default.tokens ++ ks.flatMap (Check.tokens column)) =
      some (d, ks.flatMap (Check.tokens column)) := by
  cases d with
  | none =>
    cases ks with
    | nil => rfl
    | cons k ks => simp [Check.tokens, takeDefault?]
  | some d =>
    cases d with
    | literal sql => simp [Default.tokens, takeDefault?]
    | now => simp [Default.tokens, takeDefault?, nowExpression]

theorem checks?_tokens {column : String} (h : isName column = true) (ks : List Check) :
    checks? column.toList (ks.flatMap (Check.tokens column)) = some ks := by
  induction ks with
  | nil => rfl
  | cons k ks ih =>
    show (check? column.toList (k.text column.toList)).bind _ = _
    rw [k.check?_text h, Option.bind_some]
    exact congrArg (Option.map (k :: ·)) ih

theorem column?_tokens (h : c.IsPlain) : column? c.tokens = some c := by
  simp only [tokens, column?, h.name, affinity?_name, takePresence_tokens, takeDefault?_tokens,
    checks?_tokens h.name, guard, if_true, Option.pure_def, Option.bind_eq_bind, Option.bind_some]

end Column

/-! ## Definitions -/

theorem mapM_map_eq_some {α β γ : Type} {f : β → Option γ} {g : α → β} {k : α → γ} {xs : List α}
    (h : ∀ x ∈ xs, f (g x) = some (k x)) : (xs.map g).mapM f = some (xs.map k) := by
  induction xs with
  | nil => rfl
  | cons x xs ih =>
    rw [List.forall_mem_cons] at h
    rw [List.map_cons, List.mapM_cons, h.1, ih h.2]
    rfl

theorem making_unlessThere {change? : List Token → Option Change} {ts : List Token}
    {change : Change} (h : change? ts = some change) :
    making change? (.word "IF" :: .word "NOT" :: .word "EXISTS" :: ts) = some ⟨change, true⟩ := by
  show (change? ts).map _ = _
  rw [h]
  rfl

theorem Column.comma_not_mem_tokens (c : Column) : Token.comma ∉ c.tokens := by
  have hpresence : Token.comma ∉ c.presence.tokens := by
    cases c.presence <;> simp [Presence.tokens]
  have hdefault : Token.comma ∉ c.default.toList.flatMap Default.tokens := by
    cases c.default with
    | none => simp
    | some d => cases d <;> simp [Default.tokens]
  have hchecks : Token.comma ∉ c.checks.flatMap (Check.tokens c.name) := by
    simp [Check.tokens]
  simp [tokens, hpresence, hdefault, hchecks]

/-- Columns are read from any text that has their tokens, a comma between each two. -/
theorem columns?_of_tokens {text : List Char} {cs : List Column}
    (htext : Script.tokens text = [.comma].intercalate (cs.map Column.tokens)) (hne : cs ≠ [])
    (hplain : ∀ c ∈ cs, c.IsPlain) (hdistinct : (cs.map Column.name).Nodup)
    (hkey : (cs.filter fun c => c.presence == .primaryKey).length ≤ 1) :
    columns? text = some cs := by
  have hsplit : ([Token.comma].intercalate (cs.map Column.tokens)).splitOn .comma =
      cs.map Column.tokens := by
    refine List.splitOn_intercalate Token.comma ?_ (by simpa using hne)
    intro ts hts hmem
    obtain ⟨c, -, rfl⟩ := List.mem_map.mp hts
    exact c.comma_not_mem_tokens hmem
  have hmapM : (cs.map Column.tokens).mapM column? = some (cs.map id) :=
    mapM_map_eq_some fun c hc => Column.column?_tokens (hplain c hc)
  rw [columns?, htext, hsplit, hmapM, List.map_id]
  simp [guard, hdistinct, hkey]

namespace Index

variable {table : String} {i : Index}

/-- The names of the columns of an index, as they stand in parentheses. -/
def columnsText (i : Index) : List Char := ", ".toList.intercalate (i.columns.map String.toList)

/-- The words of the statement that makes an index. -/
def words (table : String) (i : Index) : List String :=
  "CREATE" :: ((if i.unique then ["UNIQUE"] else []) ++
    ["INDEX", "IF", "NOT", "EXISTS", i.name, "ON", table])

/-- The tokens of the statement that makes an index, but for the semicolon. -/
def tokens (table : String) (i : Index) : List Token :=
  (i.words table).map .word ++ [.group i.columnsText]

/-- Whether an index can be defined without quotes. -/
structure IsPlain (i : Index) : Prop where
  name : isName i.name = true
  ne_nil : i.columns ≠ []
  columns : ∀ n ∈ i.columns, isName n = true

theorem enclosed_columnsText (h : i.IsPlain) : Enclosed i.columnsText := by
  have hcomma : Enclosed ", ".toList := .chars (by decide)
  refine .intercalate hcomma fun part hpart => ?_
  obtain ⟨n, hn, rfl⟩ := List.mem_map.mp hpart
  exact (Reads.name (h.columns n hn)).enclosed

theorem spells (htable : isName table = true) (h : i.IsPlain) :
    Spells (i.text table.toList) (i.tokens table ++ [.semicolon]) := by
  have htext : i.text table.toList = [' '].intercalate ((i.words table).map String.toList) ++
      ' ' :: '(' :: (i.columnsText ++ [')']) ++ [';'] := by
    show i.creation ++ "IF NOT EXISTS ".toList ++ i.name.toList ++ (" ON ".toList ++ table.toList ++
      " (".toList ++ i.columnsText ++ [')']) ++ [';'] = _
    cases hunique : i.unique <;> simp [creation, words, hunique]
  have hwords : (i.words table).all isPlainWord = true := by
    have hname := isPlainWord_of_isName h.name
    have htable := isPlainWord_of_isName htable
    rw [words]
    cases i.unique
    all_goals
      simp only [if_true, Bool.false_eq_true, if_false, List.nil_append, List.cons_append,
        List.all_cons, List.all_nil, hname, htable]
      decide +kernel
  exact htext ▸ spells_statement hwords (enclosed_columnsText h)

theorem splitOn_names {names : List String} (hne : names ≠ []) :
    ([Token.comma].intercalate (names.map fun n => [.word n])).splitOn .comma =
      names.map fun n => [Token.word n] := by
  refine List.splitOn_intercalate Token.comma ?_ (by simpa using hne)
  intro ts hts hmem
  obtain ⟨n, -, rfl⟩ := List.mem_map.mp hts
  simp at hmem

theorem mapM_name? (h : i.IsPlain) :
    ((Script.tokens i.columnsText).splitOn .comma).mapM name? = some i.columns := by
  have hparts : List.Forall₂ Spells (i.columns.map String.toList)
      (i.columns.map fun n => [Token.word n]) := by
    rw [List.forall₂_map_left_iff, List.forall₂_map_right_iff, List.forall₂_same]
    exact fun n hn => (Reads.name (h.columns n hn)).spells
  have htokens : Script.tokens i.columnsText =
      [.comma].intercalate (i.columns.map fun n => [Token.word n]) :=
    (Spells.list [' '] .blank hparts).tokens_eq
  have hnames : (i.columns.map fun n => [Token.word n]).mapM name? = some (i.columns.map id) :=
    mapM_map_eq_some fun n hn => if_pos (h.columns n hn)
  rw [htokens, splitOn_names h.ne_nil, hnames, List.map_id]

theorem statement?_tokens (htable : isName table = true) (h : i.IsPlain) :
    statement? (i.tokens table) = some ⟨.addIndex table i, true⟩ := by
  have hindex : index? i.unique [.word i.name, .word "ON", .word table, .group i.columnsText] =
      some (.addIndex table i) := by
    simp [index?, h.name, htable, mapM_name? h, guard]
  have hmaking := making_unlessThere hindex
  cases hunique : i.unique
  all_goals
    rw [hunique] at hmaking
    rw [tokens, words, hunique]
    exact hmaking

end Index

namespace TableDefinition

variable {d : TableDefinition}

/-- The definitions of the columns, as they stand in parentheses. -/
def columnsText (d : TableDefinition) : List Char :=
  "\n    ".toList ++ (",\n    ".toList.intercalate (d.columns.map Column.text) ++ ['\n'])

def words (d : TableDefinition) : List String := ["CREATE", "TABLE", "IF", "NOT", "EXISTS", d.name]

/-- The tokens of the statement that makes the table, but for the semicolon. -/
def tokens (d : TableDefinition) : List Token := d.words.map .word ++ [.group d.columnsText]

/-- Whether a table can be defined without quotes: it has names for columns, each its own, and at
most one primary key. -/
structure IsPlain (d : TableDefinition) : Prop where
  name : isName d.name = true
  ne_nil : d.columns ≠ []
  columns : ∀ c ∈ d.columns, c.IsPlain
  distinct : (d.columns.map Column.name).Nodup
  key : (d.columns.filter fun c => c.presence == .primaryKey).length ≤ 1
  indexes : ∀ i ∈ d.indexes, i.IsPlain

theorem spells_columnsText (h : d.IsPlain) : Spells d.columnsText
    ([.comma].intercalate (d.columns.map Column.tokens)) := by
  have hparts : List.Forall₂ Spells (d.columns.map Column.text) (d.columns.map Column.tokens) := by
    rw [List.forall₂_map_left_iff, List.forall₂_map_right_iff, List.forall₂_same]
    exact fun c hc => (Column.reads (h.columns c hc)).spells
  have hlist := Spells.list "\n    ".toList (fun h => h.blank.blank.blank.blank.line) hparts
  exact hlist.append_line.blank.blank.blank.blank.line

theorem enclosed_columnsText (h : d.IsPlain) : Enclosed d.columnsText := by
  refine (Enclosed.chars (by decide +kernel)).append (.append (.intercalate
    (.chars (by decide +kernel)) ?_) (.chars (by decide)))
  intro part hpart
  obtain ⟨c, hc, rfl⟩ := List.mem_map.mp hpart
  exact (Column.reads (h.columns c hc)).enclosed

theorem columns?_columnsText (h : d.IsPlain) : columns? d.columnsText = some d.columns :=
  columns?_of_tokens (spells_columnsText h).tokens_eq h.ne_nil h.columns h.distinct h.key

theorem spells_tableText (h : d.IsPlain) : Spells d.tableText (d.tokens ++ [.semicolon]) := by
  have htext : d.tableText = [' '].intercalate (d.words.map String.toList) ++
      ' ' :: '(' :: (d.columnsText ++ [')']) ++ [';'] := by
    show "CREATE TABLE IF NOT EXISTS ".toList ++ d.name.toList ++ (" (\n    ".toList ++
      ",\n    ".toList.intercalate (d.columns.map Column.text) ++ "\n)".toList) ++ [';'] = _
    simp [words, columnsText]
  have hwords : d.words.all isPlainWord = true := by
    simp only [words, List.all_cons, List.all_nil, isPlainWord_of_isName h.name]
    decide +kernel
  exact htext ▸ spells_statement hwords (enclosed_columnsText h)

theorem statement?_tokens (h : d.IsPlain) :
    statement? d.tokens = some ⟨.createTable { d with indexes := [] }, true⟩ := by
  have htable : table? [.word d.name, .group d.columnsText] =
      some (.createTable { d with indexes := [] }) := by
    simp [table?, h.name, columns?_columnsText h, guard]
  exact making_unlessThere htable

/-- The statements that the text of a definition is made of. -/
def statements (d : TableDefinition) : List Statement :=
  ⟨.createTable { d with indexes := [] }, true⟩ ::
    d.indexes.map fun i => ⟨.addIndex d.name i, true⟩

/-- The text of a definition is read as the statements that make the table and its indexes. -/
theorem read_text (h : d.IsPlain) : Script.read d.text = some d.statements := by
  have hindexes : List.Forall₂ Spells (d.indexes.map (Index.text d.name.toList))
      (d.indexes.map fun i => i.tokens d.name ++ [.semicolon]) := by
    rw [List.forall₂_map_left_iff, List.forall₂_map_right_iff, List.forall₂_same]
    exact fun i hi => Index.spells h.name (h.indexes i hi)
  have htokens : Script.tokens d.text =
      (d.tokens :: d.indexes.map (Index.tokens d.name)).flatMap (· ++ [.semicolon]) := by
    rw [List.flatMap_def, List.map_cons, List.map_map]
    exact (Spells.lines (.cons (spells_tableText h) hindexes)).tokens_eq
  have hsemicolon : ∀ ts ∈ d.tokens :: d.indexes.map (Index.tokens d.name),
      Token.semicolon ∉ ts := by
    rw [List.forall_mem_cons, List.forall_mem_map]
    exact ⟨by simp [tokens], fun i _ => by simp [Index.tokens]⟩
  have hfilter : (d.tokens :: d.indexes.map (Index.tokens d.name)).filter
      (fun ts => !ts.isEmpty) = d.tokens :: d.indexes.map (Index.tokens d.name) := by
    rw [List.filter_eq_self, List.forall_mem_cons, List.forall_mem_map]
    exact ⟨by simp [tokens], fun i _ => by simp [Index.tokens]⟩
  have hmapM : (d.indexes.map (Index.tokens d.name)).mapM statement? =
      some (d.indexes.map fun i => ⟨.addIndex d.name i, true⟩) :=
    mapM_map_eq_some fun i hi => Index.statement?_tokens h.name (h.indexes i hi)
  rw [Script.read, htokens, splitOn_flatMap hsemicolon, List.filter_append, hfilter,
    show ([[]] : List (List Token)).filter (fun ts => !ts.isEmpty) = [] from rfl, List.append_nil,
    List.mapM_cons, statement?_tokens h, hmapM]
  rfl

/-! ## Execution -/

/-- Whether the indexes can be made one after the other: they have names of their own and are over
columns of the table. -/
structure IndexesFit (d : TableDefinition) : Prop where
  distinct : (d.indexes.map Index.name).Nodup
  columns : ∀ i ∈ d.indexes, ∀ n ∈ i.columns, n ∈ d.columns.map Column.name

end TableDefinition

namespace Table

variable {t : Table}

/-- A table without rows is given an index that it has not. -/
theorem addIndex_eq_ok (hrows : t.rows = .empty) {i : Index}
    (hnew : i.name ∉ t.indexes.map Index.name)
    (hcolumns : ∀ n ∈ i.columns, n ∈ t.columnNames) :
    t.addIndex i = .ok { t with indexes := t.indexes ++ [i] } := by
  have hname : (t.indexes.map Index.name).contains i.name = false := by simpa using hnew
  have hrepeats : t.repeats i.columns = false := by
    rw [repeats, fullRows, hrows]
    rfl
  have hrequire : t.requireColumns i.columns = .ok () :=
    requireColumns_eq_ok_iff.mpr fun n hn => by simpa [hasColumn] using hcolumns n hn
  simp only [addIndex, hname, hrequire, hrepeats, Bool.and_false]
  rfl

theorem apply_addIndex (hrows : t.rows = .empty) {i : Index}
    (hnew : i.name ∉ t.indexes.map Index.name) (hcolumns : ∀ n ∈ i.columns, n ∈ t.columnNames)
    {db : Database} (hdb : db.table? = some t) :
    Change.apply db (.addIndex t.name i) =
      .ok (db.withTable { t with indexes := t.indexes ++ [i] }) := by
  have htable : db.table t.name = .ok t := by
    rw [Database.table, hdb]
    exact if_pos rfl
  show (do let u ← db.table t.name; return db.withTable (← u.addIndex i)) = _
  rw [htable]
  show (do return db.withTable (← t.addIndex i)) = _
  rw [addIndex_eq_ok hrows hnew hcolumns]
  rfl

end Table

namespace TableDefinition

variable {d : TableDefinition}

/-- The indexes are made one after the other. -/
theorem run_indexes {t : Table} (hrows : t.rows = .empty) {is : List Index}
    (hdistinct : ((t.indexes ++ is).map Index.name).Nodup)
    (hcolumns : ∀ i ∈ is, ∀ n ∈ i.columns, n ∈ t.columnNames) {e : Database}
    (hdb : e.table? = some t) :
    (is.map fun i => (⟨.addIndex t.name i, true⟩ : Statement)).foldlM Statement.run e =
      .ok (e.withTable { t with indexes := t.indexes ++ is }) := by
  -- The table has the indexes in front already, so the induction is over any table.
  induction is generalizing t e with
  | nil =>
    have hsame : { t with indexes := t.indexes ++ [] } = t := by rw [List.append_nil]
    rw [hsame, Database.withTable, ← hdb]
    rfl
  | cons i is ih =>
    rw [List.forall_mem_cons] at hcolumns
    have hnew : i.name ∉ t.indexes.map Index.name := by
      rw [List.map_append, List.map_cons, List.nodup_append] at hdistinct
      exact fun hmem => hdistinct.2.2 _ hmem _ List.mem_cons_self rfl
    have hthere : isThere e (.addIndex t.name i) = false := by
      rw [isThere, hdb]
      simpa using hnew
    have hrun : Statement.run e ⟨.addIndex t.name i, true⟩ =
        .ok (e.withTable { t with indexes := t.indexes ++ [i] }) := by
      rw [Statement.run, hthere]
      exact Table.apply_addIndex hrows hnew hcolumns.1 hdb
    have hrest := ih (t := { t with indexes := t.indexes ++ [i] }) hrows
      (by rwa [List.append_assoc]) hcolumns.2 (e := e.withTable _) rfl
    rw [List.map_cons, List.foldlM_cons, hrun]
    rw [List.append_assoc] at hrest
    exact hrest

/-- To execute the text of a definition is to make the table that it describes. -/
theorem run_text (h : d.IsPlain) (hindexes : d.IndexesFit) {db : Database}
    (hdb : db.table? = none) :
    Script.run d.text db = some (.ok (db.withTable (.ofDefinition d))) := by
  have hcreate : Statement.run db ⟨.createTable { d with indexes := [] }, true⟩ =
      .ok (db.withTable (.ofDefinition { d with indexes := [] })) := by
    simp [Statement.run, isThere, Change.apply, hdb]
  have hrest := run_indexes (t := .ofDefinition { d with indexes := [] }) rfl hindexes.distinct
    hindexes.columns (e := db.withTable (.ofDefinition { d with indexes := [] })) rfl
  rw [Script.run, read_text h, Option.map_some, statements, List.foldlM_cons, hcreate]
  exact congrArg some hrest

end TableDefinition

/-! ## The scripts of the migrations -/

namespace Migration

/-- The columns of the table of companies in its last form. -/
def lastColumns : List Column := firstForm.columns ++ [groupColumn]

theorem isPlain_of_mem_lastColumns : ∀ c ∈ lastColumns, c.IsPlain := by
  have hnames : ∀ c ∈ lastColumns, isName c.name = true := by decide +kernel
  have hliterals : ∀ c ∈ lastColumns, ∀ sql, c.default = some (.literal sql) →
      sql = "0" ∨ sql = "1" := by
    simp [lastColumns, firstForm, groupColumn]
  intro c hc
  refine ⟨hnames c hc, fun sql hsql => ?_⟩
  rcases hliterals c hc sql hsql with rfl | rfl
  all_goals exact isWord_of_isPlainWord (by decide)

theorem tokens_companyListColumns : Script.tokens companyListColumns =
    [.comma].intercalate (firstForm.columns.map Column.tokens) := by
  delta companyListColumns
  simp only [List.map_cons, List.map_nil, String.reduceToList]
  decide +kernel

theorem tokens_companyList : Script.tokens Script.companyList =
    [[.word "CREATE", .word "TABLE", .word "Company_List", .group companyListColumns],
      [.word "CREATE", .word "UNIQUE", .word "INDEX", .word "PK_Locations", .word "ON",
        .word "Company_List", .group "CompanyId".toList]].flatMap (· ++ [.semicolon]) := by
  delta Script.companyList companyListColumns
  simp only [List.map_cons, List.map_nil, String.reduceToList]
  decide +kernel

/-- The index over the key. -/
def keyIndex : Index := { name := "PK_Locations", columns := ["CompanyId"], unique := true }

theorem read_companyList : Script.read Script.companyList =
    some [⟨.createTable { firstForm with indexes := [] }, false⟩,
      ⟨.addIndex tableName keyIndex, false⟩] := by
  have hname : isName "Company_List" = true := by decide +kernel
  have hcolumns : columns? companyListColumns = some firstForm.columns :=
    columns?_of_tokens tokens_companyListColumns (by simp [firstForm])
      (fun c hc => isPlain_of_mem_lastColumns c (List.mem_append_left _ hc)) (by decide) (by decide)
  have htable : statement? [.word "CREATE", .word "TABLE", .word "Company_List",
      .group companyListColumns] = some ⟨.createTable { firstForm with indexes := [] }, false⟩ := by
    show (table? [.word "Company_List", .group companyListColumns]).map _ = _
    simp only [table?, hname, hcolumns, guard, if_true]
    rfl
  have hindex : statement? [.word "CREATE", .word "UNIQUE", .word "INDEX", .word "PK_Locations",
      .word "ON", .word "Company_List", .group "CompanyId".toList] =
        some ⟨.addIndex tableName keyIndex, false⟩ := by
    decide +kernel
  rw [Script.read, tokens_companyList, splitOn_flatMap (by simp)]
  show ([_, _] : List (List Token)).mapM statement? = _
  rw [List.mapM_cons, List.mapM_cons, htable, hindex]
  rfl

/-- The script of the first migration makes its changes. -/
theorem script_companyList (db : Database) : Script.run Script.companyList db =
    some (companyList.changes.foldlM Change.apply db) := by
  -- The migration makes the table with its index at once.
  have hchanges : (Change.apply db (.createTable { firstForm with indexes := [] }) >>=
      fun made => Change.apply made (.addIndex tableName keyIndex)) =
        Change.apply db (.createTable firstForm) := by
    cases hdb : db.table? with
    | some t =>
      simp only [Change.apply, hdb, Option.isSome_some, if_true]
      rfl
    | none =>
      have hcreate : ∀ d : TableDefinition,
          Change.apply db (.createTable d) = .ok (db.withTable (.ofDefinition d)) := by
        intro d
        rw [Change.apply, hdb]
        rfl
      rw [hcreate, hcreate]
      exact Table.apply_addIndex (t := .ofDefinition { firstForm with indexes := [] })
        rfl (i := keyIndex) (by simp [Table.ofDefinition]) (by decide)
        (show (db.withTable _).table? = some _ from rfl)
  have hrun : ∀ (d : Database) (change : Change),
      Statement.run d ⟨change, false⟩ = Change.apply d change := fun _ _ => rfl
  rw [Script.run, read_companyList, Option.map_some, companyList]
  simp only [List.foldlM_cons, List.foldlM_nil, bind_pure, hrun, hchanges]

/-- The script of the second migration makes its changes. -/
theorem script_companyGroup (db : Database) : Script.run Script.companyGroup db =
    some (companyGroup.changes.foldlM Change.apply db) := by
  have htokens : Script.tokens Script.companyGroup =
      [[.word "ALTER", .word "TABLE", .word "Company_List", .word "ADD", .word "COLUMN",
          .word "CompanyGroupId", .word "INTEGER", .word "NULL"],
        [.word "CREATE", .word "INDEX", .word "IX_Company_List_CompanyGroupId", .word "ON",
          .word "Company_List", .group "CompanyGroupId".toList]].flatMap (· ++ [.semicolon]) := by
    delta Script.companyGroup
    simp only [String.reduceToList]
    decide +kernel
  have hread : Script.read Script.companyGroup =
      some (companyGroup.changes.map fun change => ⟨change, false⟩) := by
    rw [Script.read, htokens, splitOn_flatMap (by simp)]
    decide +kernel
  rw [Script.run, hread, Option.map_some, List.foldlM_map]
  rfl

end Migration

end Store

/-- To execute the statements of an entity on a database without a table is to make the table that
the entity defines. -/
theorem Entity.run_ddl {e : Entity} (hcomment : '\n' ∉ e.qualifiedTable.toList)
    (h : e.definition.IsPlain) (hindexes : e.definition.IndexesFit) {db : Store.Database}
    (hdb : db.table? = none) :
    Store.Script.run e.ddl db = some (.ok (db.withTable (.ofDefinition e.definition))) := by
  rw [ddl, Store.Script.run, Store.Script.read_comment hcomment]
  exact Store.TableDefinition.run_text h hindexes hdb

end CompanyRegister
