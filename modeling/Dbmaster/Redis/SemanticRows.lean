import Dbmaster.Redis.Resp
/-!
# Tables of replies

The replies of some commands as tables: a row for each item or each pair of the reply,
after the cursor where there is one.
-/

namespace Dbmaster.Redis

open Dbmaster.Lib Dbmaster.Mongo.ExtendedJson

abbrev Table := List String × List (List Value)

/-- `chunks(2)` -/
def chunks2 {α : Type} : List α → List (List α)
  | [] => []
  | [a] => [[a]]
  | a :: b :: items => [a, b] :: chunks2 items

/-- The chunks of two. -/
def wholePairs (items : List Resp) : List (Resp × Resp) :=
  (chunks2 items).filterMap fun c =>
    match c with
    | [k, v] => some (k, v)
    | _ => none

section Rows

variable (floats : FloatText)

def itemCells (items : List Resp) : List (List Value) := items.map fun item => [cell floats item]

def pairCells (pairs : List (Resp × Resp)) : List (List Value) :=
  pairs.map fun p => [cell floats p.1, cell floats p.2]

/-- A chunk of one is completed by a nil. -/
def chunkCells (items : List Resp) : List (List Value) :=
  (chunks2 items).map fun pair =>
    [cell floats (pair.head?.getD .nil), cell floats ((pair[1]?).getD .nil)]

/-- `[cursor, [items...]]`; an empty batch is left to the fallback, which keeps the cursor. -/
def scanTable (itemCols : List String) (cells : List Resp → List (List Value)) (result : Resp) :
    Option Table :=
  match result with
  | .array [first, .array items] =>
      if items.isEmpty then none
      else (respString floats first).map fun cursor =>
        ("cursor" :: itemCols, (cells items).map fun row => .string cursor :: row)
  | _ => none

def arrayTable (col : String) (result : Resp) : Option Table :=
  match result with
  | .array items => some ([col], itemCells floats items)
  | _ => none

def pairTable (cols : List String) (result : Resp) : Option Table :=
  match result with
  | .array items => some (cols, pairCells floats (wholePairs items))
  | .map pairs => some (cols, pairCells floats pairs)
  | _ => none

def withScores (args : List String) (result : Resp) : Option Table :=
  if args.any fun a => Text.asciiUpper a.toList == "WITHSCORES".toList then
    match result with
    | .array items => some (["member", "score"], pairCells floats (wholePairs items))
    | _ => none
  else none

def upperName (name : String) : String := String.ofList (Text.asciiUpper name.toList)

def semanticRows (name : String) (args : List String) (result : Resp) : Option Table :=
  match upperName name with
  | "SCAN" => scanTable floats ["key"] (itemCells floats) result
  | "HSCAN" => scanTable floats ["field", "value"] (chunkCells floats) result
  | "SSCAN" => scanTable floats ["member"] (itemCells floats) result
  | "ZSCAN" => scanTable floats ["member", "score"] (chunkCells floats) result
  | "KEYS" => arrayTable floats "key" result
  | "SMEMBERS" => arrayTable floats "member" result
  | "SINTER" => arrayTable floats "member" result
  | "SUNION" => arrayTable floats "member" result
  | "SDIFF" => arrayTable floats "member" result
  | "LRANGE" => arrayTable floats "element" result
  | "HGETALL" => pairTable floats ["field", "value"] result
  | "CONFIG" => pairTable floats ["parameter", "value"] result
  | "ZRANGE" => withScores floats args result
  | "ZRANGESTORE" => withScores floats args result
  | "MGET" => arrayTable floats "value" result
  | _ => none

def fallbackRow (result : Resp) : List Value := [respToJson result]

/-- The table that a command answers with. -/
def commandTable (name : String) (args : List String) (result : Resp) : Table :=
  (semanticRows floats name args result).getD (["result"], [fallbackRow result])

end Rows

/-! ## What a reply holds -/

/-- The commands whose reply is a cursor and a batch of items. -/
def scanCommands : List String := ["SCAN", "HSCAN", "SSCAN", "ZSCAN"]

/-- The commands whose items are pairs. -/
def pairCommands : List String :=
  ["HSCAN", "ZSCAN", "HGETALL", "CONFIG", "ZRANGE", "ZRANGESTORE"]

/-- The commands whose items are elements of a list or values. -/
def valueCommands : List String := ["LRANGE", "MGET"]

def replyCursor (floats : FloatText) (command : String) (result : Resp) : Option String :=
  match result with
  | .array [first, _] => if command ∈ scanCommands then respString floats first else none
  | _ => none

/-- The items of a reply in their order, those of a pair one after the other. -/
def replyItems (command : String) (result : Resp) : List Resp :=
  match result with
  | .array items =>
      if command ∈ scanCommands then
        match items with
        | [_, .array batch] => batch
        | _ => []
      else items
  | .map pairs => pairs.flatMap fun p => [p.1, p.2]
  | _ => []

def replyWidth (command : String) : Nat := if command ∈ pairCommands then 2 else 1

/-- Every other item, from the first. -/
def firsts : List Resp → List Resp
  | [] => []
  | [k] => [k]
  | k :: _ :: items => k :: firsts items

/-- The keys, members, fields and parameters of a reply. -/
def replyKeys (command : String) (result : Resp) : List Resp :=
  if command ∈ valueCommands then []
  else if command ∈ pairCommands then firsts (replyItems command result)
  else replyItems command result

/-- A row for every `width` items in their order, after the cursor if there is one. -/
structure Keeps (floats : FloatText) (cursor : Option String) (width : Nat) (items : List Resp)
    (table : Table) : Prop where
  columns : table.1.length = cursor.toList.length + width
  rows : ∀ row ∈ table.2, ∃ cells : List Value, cells.length = width ∧
    row = cursor.toList.map Value.string ++ cells
  items : (table.2.flatMap fun row => row.drop cursor.toList.length) = items.map (cell floats)

/-- Every item has its place in the table, and different keys have different cells. -/
def KeepsReply (floats : FloatText) (name : String) (args : List String) (result : Resp) : Prop :=
  ∀ table, semanticRows floats name args result = some table →
    Keeps floats (replyCursor floats (upperName name) result) (replyWidth (upperName name))
      (replyItems (upperName name) result) table ∧
    ∀ b b' : List UInt8, Resp.bulkString b ∈ replyKeys (upperName name) result →
      Resp.bulkString b' ∈ replyKeys (upperName name) result → b ≠ b' →
      cell floats (.bulkString b) ≠ cell floats (.bulkString b')

/-- The items that a table shows: where a pair is incomplete, the batch of a scan gets a nil
and another reply loses its last item. -/
def shownItems (command : String) (items : List Resp) : List Resp :=
  if command ∈ pairCommands ∧ items.length % 2 = 1 then
    if command ∈ scanCommands then items ++ [.nil] else items.dropLast
  else items

/-- The table shows the items it can. -/
def KeepsShown (floats : FloatText) (command : String) (result : Resp) (table : Table) : Prop :=
  Keeps floats (replyCursor floats command result) (replyWidth command)
    (shownItems command (replyItems command result)) table

variable {floats : FloatText}

theorem keepsShown_pair {command : String} {result : Resp} {table : Table}
    (hpair : command ∈ pairCommands)
    (h : Keeps floats (replyCursor floats command result) 2
      (shownItems command (replyItems command result)) table) :
    KeepsShown floats command result table := by
  rw [KeepsShown, replyWidth, if_pos hpair]
  exact h

theorem keepsShown_item {command : String} {result : Resp} {table : Table}
    (hitem : command ∉ pairCommands)
    (h : Keeps floats (replyCursor floats command result) 1 (replyItems command result) table) :
    KeepsShown floats command result table := by
  rw [KeepsShown, replyWidth, if_neg hitem, shownItems, if_neg fun hpair => hitem hpair.1]
  exact h

/-! ## Rows of groups -/

theorem keeps_groups (cursor : Option String) {cols : List String} {width : Nat}
    {groups : List (List Resp)} (hcols : cols.length = cursor.toList.length + width)
    (hwidth : ∀ g ∈ groups, g.length = width) :
    Keeps floats cursor width groups.flatten
      (cols, groups.map fun g => cursor.toList.map Value.string ++ g.map (cell floats)) where
  columns := hcols
  rows := by
    intro row hrow
    obtain ⟨g, hg, rfl⟩ := List.mem_map.mp hrow
    exact ⟨g.map (cell floats), (List.length_map _).trans (hwidth g hg), rfl⟩
  items := by
    induction groups with
    | nil => rfl
    | cons g groups ih =>
        have hrest := ih fun g' hg' => hwidth g' (List.mem_cons_of_mem g hg')
        have hdrop : (cursor.toList.map Value.string ++ g.map (cell floats)).drop
            cursor.toList.length = g.map (cell floats) := by
          rw [← List.length_map (f := Value.string), List.drop_left]
        rw [List.map_cons, List.flatMap_cons, hdrop, hrest, List.flatten_cons, List.map_append]

theorem length_pair_mod (k v : Resp) (items : List Resp) :
    (k :: v :: items).length % 2 = items.length % 2 := by
  simp only [List.length_cons]
  omega

theorem flatten_chunks (items : List Resp) :
    ((chunks2 items).map fun pair => [pair.head?.getD .nil, (pair[1]?).getD .nil]).flatten =
      if items.length % 2 = 1 then items ++ [.nil] else items := by
  induction items using chunks2.induct with
  | case1 => rfl
  | case2 k => rfl
  | case3 k v items ih =>
      rw [chunks2, List.map_cons, List.flatten_cons, ih, length_pair_mod]
      split_ifs
      · rfl
      · rfl

theorem flatten_wholePairs (items : List Resp) :
    ((wholePairs items).map fun p => [p.1, p.2]).flatten =
      if items.length % 2 = 1 then items.dropLast else items := by
  induction items using chunks2.induct with
  | case1 => rfl
  | case2 k => rfl
  | case3 k v items ih =>
      have hpairs : wholePairs (k :: v :: items) = (k, v) :: wholePairs items := rfl
      rw [hpairs, List.map_cons, List.flatten_cons, ih, length_pair_mod]
      split_ifs with hodd
      · cases items with
        | nil => cases hodd
        | cons i items => rfl
      · rfl

/-! ## The tables -/

theorem scanTable_keeps {command : String} {itemCols : List String}
    {cells : List Resp → List (List Value)} {result : Resp} {table : Table}
    (groups : List Resp → List (List Resp)) (hscan : command ∈ scanCommands)
    (hcells : ∀ items, cells items = (groups items).map fun g => g.map (cell floats))
    (hwidth : ∀ items, ∀ g ∈ groups items, g.length = itemCols.length)
    (h : scanTable floats itemCols cells result = some table) :
    Keeps floats (replyCursor floats command result) itemCols.length
      (groups (replyItems command result)).flatten table := by
  unfold scanTable at h
  split at h
  · rename_i first items
    split_ifs at h
    obtain ⟨cursor, hcursor, rfl⟩ := Option.map_eq_some_iff.mp h
    have hreply : replyCursor floats command (.array [first, .array items]) = some cursor := by
      rw [replyCursor, if_pos hscan, hcursor]
    have hitems : replyItems command (.array [first, .array items]) = items := by
      rw [replyItems, if_pos hscan]
    rw [hreply, hitems, hcells, List.map_map]
    refine keeps_groups (some cursor) ?_ (hwidth items)
    rw [List.length_cons, Nat.add_comm]
    rfl
  · cases h

theorem replyCursor_of_not_scan {command : String} (hscan : command ∉ scanCommands)
    (result : Resp) : replyCursor floats command result = none := by
  unfold replyCursor
  split
  · exact if_neg hscan
  · rfl

theorem replyItems_array {command : String} (hscan : command ∉ scanCommands)
    (items : List Resp) : replyItems command (.array items) = items := by
  unfold replyItems
  exact if_neg hscan

theorem arrayTable_keeps {command col : String} {result : Resp} {table : Table}
    (hscan : command ∉ scanCommands) (hitem : command ∉ pairCommands)
    (h : arrayTable floats col result = some table) : KeepsShown floats command result table := by
  apply keepsShown_item hitem
  unfold arrayTable at h
  split at h
  · rename_i items
    obtain rfl := Option.some.inj h
    have hsingles : (items.map fun i => [i]).flatten = items := by
      rw [← List.flatMap_def, List.flatMap_singleton']
    have hcells : itemCells floats items = (items.map fun i => [i]).map fun g =>
        (none : Option String).toList.map Value.string ++ g.map (cell floats) := by
      rw [itemCells, List.map_map]
      rfl
    rw [replyCursor_of_not_scan hscan, replyItems_array hscan, hcells]
    conv => arg 4; rw [← hsingles]
    apply keeps_groups none rfl
    intro g hg
    obtain ⟨i, _, rfl⟩ := List.mem_map.mp hg
    rfl
  · cases h

theorem pairCells_keeps {cols : List String} (hcols : cols.length = 2)
    (pairs : List (Resp × Resp)) :
    Keeps floats none 2 (pairs.map fun p => [p.1, p.2]).flatten (cols, pairCells floats pairs) := by
  have hcells : pairCells floats pairs = (pairs.map fun p => [p.1, p.2]).map fun g =>
      (none : Option String).toList.map Value.string ++ g.map (cell floats) := by
    rw [pairCells, List.map_map]
    rfl
  rw [hcells]
  apply keeps_groups none hcols
  intro g hg
  obtain ⟨p, _, rfl⟩ := List.mem_map.mp hg
  rfl

theorem wholePairs_keeps {command : String} {cols : List String} (hscan : command ∉ scanCommands)
    (hpair : command ∈ pairCommands) (hcols : cols.length = 2) (items : List Resp) :
    KeepsShown floats command (.array items) (cols, pairCells floats (wholePairs items)) := by
  have hshown : shownItems command items =
      ((wholePairs items).map fun p => [p.1, p.2]).flatten := by
    rw [flatten_wholePairs, shownItems, if_neg hscan]
    simp only [hpair, true_and]
  apply keepsShown_pair hpair
  rw [replyCursor_of_not_scan hscan, replyItems_array hscan, hshown]
  exact pairCells_keeps hcols _

theorem length_flatMap_pair (pairs : List (Resp × Resp)) :
    (pairs.flatMap fun p => [p.1, p.2]).length % 2 = 0 := by
  induction pairs with
  | nil => rfl
  | cons p pairs ih =>
      rw [List.flatMap_cons, List.length_append, List.length_cons, List.length_singleton]
      omega

theorem pairTable_keeps {command : String} {cols : List String} {result : Resp} {table : Table}
    (hscan : command ∉ scanCommands) (hpair : command ∈ pairCommands) (hcols : cols.length = 2)
    (h : pairTable floats cols result = some table) : KeepsShown floats command result table := by
  unfold pairTable at h
  split at h
  · obtain rfl := Option.some.inj h
    exact wholePairs_keeps hscan hpair hcols _
  · rename_i pairs
    obtain rfl := Option.some.inj h
    have hshown : shownItems command (replyItems command (.map pairs)) =
        (pairs.map fun p => [p.1, p.2]).flatten := by
      rw [replyItems, shownItems, length_flatMap_pair, if_neg (by omega), List.flatMap_def]
    apply keepsShown_pair hpair
    rw [replyCursor_of_not_scan hscan, hshown]
    exact pairCells_keeps hcols pairs
  · cases h

theorem withScores_keeps {command : String} {args : List String} {result : Resp} {table : Table}
    (hscan : command ∉ scanCommands) (hpair : command ∈ pairCommands)
    (h : withScores floats args result = some table) : KeepsShown floats command result table := by
  unfold withScores at h
  split_ifs at h
  split at h
  · obtain rfl := Option.some.inj h
    exact wholePairs_keeps hscan hpair rfl _
  · cases h

theorem scanPairs_keeps {command : String} {itemCols : List String} {result : Resp}
    {table : Table} (hscan : command ∈ scanCommands) (hpair : command ∈ pairCommands)
    (hcols : itemCols.length = 2)
    (h : scanTable floats itemCols (chunkCells floats) result = some table) :
    KeepsShown floats command result table := by
  have hcells : ∀ items, chunkCells floats items = ((chunks2 items).map fun pair =>
      [pair.head?.getD .nil, (pair[1]?).getD .nil]).map fun g => g.map (cell floats) := by
    intro items
    rw [chunkCells, List.map_map]
    rfl
  have hkeeps := scanTable_keeps _ hscan hcells
    (fun items g hg => by
      obtain ⟨pair, _, rfl⟩ := List.mem_map.mp hg
      exact hcols.symm) h
  have hshown : ∀ items, shownItems command items =
      ((chunks2 items).map fun pair => [pair.head?.getD .nil, (pair[1]?).getD .nil]).flatten := by
    intro items
    rw [flatten_chunks, shownItems, if_pos hscan]
    simp only [hpair, true_and]
  apply keepsShown_pair hpair
  rw [hshown, ← hcols]
  exact hkeeps

theorem scanItems_keeps {command col : String} {result : Resp} {table : Table}
    (hscan : command ∈ scanCommands) (hitem : command ∉ pairCommands)
    (h : scanTable floats [col] (itemCells floats) result = some table) :
    KeepsShown floats command result table := by
  have hcells : ∀ items, itemCells floats items =
      (items.map fun i => [i]).map fun g => g.map (cell floats) := by
    intro items
    rw [itemCells, List.map_map]
    rfl
  have hkeeps := scanTable_keeps _ hscan hcells
    (fun items g hg => by
      obtain ⟨i, _, rfl⟩ := List.mem_map.mp hg
      rfl) h
  rw [← List.flatMap_def, List.flatMap_singleton'] at hkeeps
  exact keepsShown_item hitem hkeeps

theorem semanticRows_keepsShown {name : String} {args : List String} {result : Resp}
    {table : Table} (h : semanticRows floats name args result = some table) :
    KeepsShown floats (upperName name) result table := by
  unfold semanticRows at h
  split at h
  case h_1 hc => rw [hc]; exact scanItems_keeps (by decide) (by decide) h
  case h_2 hc => rw [hc]; exact scanPairs_keeps (by decide) (by decide) rfl h
  case h_3 hc => rw [hc]; exact scanItems_keeps (by decide) (by decide) h
  case h_4 hc => rw [hc]; exact scanPairs_keeps (by decide) (by decide) rfl h
  case h_5 hc => rw [hc]; exact arrayTable_keeps (by decide) (by decide) h
  case h_6 hc => rw [hc]; exact arrayTable_keeps (by decide) (by decide) h
  case h_7 hc => rw [hc]; exact arrayTable_keeps (by decide) (by decide) h
  case h_8 hc => rw [hc]; exact arrayTable_keeps (by decide) (by decide) h
  case h_9 hc => rw [hc]; exact arrayTable_keeps (by decide) (by decide) h
  case h_10 hc => rw [hc]; exact arrayTable_keeps (by decide) (by decide) h
  case h_11 hc => rw [hc]; exact pairTable_keeps (by decide) (by decide) rfl h
  case h_12 hc => rw [hc]; exact pairTable_keeps (by decide) (by decide) rfl h
  case h_13 hc => rw [hc]; exact withScores_keeps (by decide) (by decide) h
  case h_14 hc => rw [hc]; exact withScores_keeps (by decide) (by decide) h
  case h_15 hc => rw [hc]; exact arrayTable_keeps (by decide) (by decide) h
  case h_16 => cases h

/-! ## Every item, and which keys share a cell -/

/-- What a table shows of a reply. -/
structure ShowsReply (floats : FloatText) (command : String) (result : Resp) (table : Table) :
    Prop where
  items : KeepsShown floats command result table
  /-- two keys share a cell where they read as one number, or are broken in the same way -/
  keys : ∀ b b' : List UInt8, Resp.bulkString b ∈ replyKeys command result →
    Resp.bulkString b' ∈ replyKeys command result → b ≠ b' →
    (cell floats (.bulkString b) = cell floats (.bulkString b') ↔ SameReading floats b b')
  /-- a key that is shown as a text without replacements is that text -/
  texts : ∀ (b : List UInt8) (s : String), Resp.bulkString b ∈ replyKeys command result →
    cell floats (.bulkString b) = .string s → Utf8.replacement ∉ s.toList →
    b = Utf8.encode s.toList

/-- A table of the reply, or the reply itself. -/
theorem commandTable_shows (floats : FloatText) (name : String) (args : List String)
    (result : Resp) :
    (semanticRows floats name args result = none ∧
      commandTable floats name args result = (["result"], [[respToJson result]])) ∨
    (semanticRows floats name args result = some (commandTable floats name args result) ∧
      ShowsReply floats (upperName name) result (commandTable floats name args result)) := by
  cases h : semanticRows floats name args result with
  | none =>
      left
      exact ⟨rfl, by rw [commandTable, h]; rfl⟩
  | some table =>
      right
      have htable : commandTable floats name args result = table := by
        rw [commandTable, h, Option.getD_some]
      rw [htable]
      refine ⟨rfl, semanticRows_keepsShown h, ?_, ?_⟩
      · intro b b' _ _ _
        exact cell_eq_iff b b'
      · intro b s _ hcell hvalid
        exact eq_encode_of_cell hcell hvalid

def seven : Resp := .bulkString (Utf8.encode ['7'])

def paddedSeven : Resp := .bulkString (Utf8.encode ['0', '0', '7'])

/-- No text is read as a double. -/
def noFloats : FloatText := ⟨fun _ => none, fun _ => ""⟩

/-- The members `7` and `007` of a set have one cell, and a field without a value has none. -/
theorem sevens_not_keepsReply :
    ¬ KeepsReply noFloats "SMEMBERS" [] (.array [seven, paddedSeven]) ∧
      ¬ KeepsReply noFloats "HGETALL" [] (.array [seven]) := by
  constructor
  · intro hkeeps
    have hdiffer := (hkeeps _ rfl).2 (Utf8.encode ['7']) (Utf8.encode ['0', '0', '7'])
      List.mem_cons_self (List.mem_cons_of_mem _ List.mem_cons_self) (by decide +kernel)
    exact hdiffer ((cell_eq_iff _ _).mpr (.int 7 (by decide +kernel) (by decide +kernel)))
  · intro hkeeps
    have hitems := (hkeeps _ rfl).1.items
    exact absurd (congrArg List.length hitems) (by decide)

end Dbmaster.Redis
