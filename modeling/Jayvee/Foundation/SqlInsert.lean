import Jayvee.Foundation.Sql

/-! # Statements of SQL that insert rows -/

namespace Jayvee.Foundation.Sql

/-! ## Reading a statement -/

inductive Literal where
  | text (value : String)
  | number (value : ℚ)
  deriving DecidableEq

/-- `INSERT INTO "table" ("column", ...) VALUES (literal, ...), ...` -/
structure Insert where
  table : String
  columns : List String
  tuples : List (List Literal)

def parseName : List Token → Option (String × List Token)
  | .identifier name :: rest => some (name, rest)
  | _ => none

def parseLiteral : List Token → Option (Literal × List Token)
  | .text value :: rest => some (.text value, rest)
  | .symbol '-' :: .number value :: rest => some (.number (-value), rest)
  | .number value :: rest => some (.number value, rest)
  | _ => none

section Lists

variable {α : Type} (parseItem : List Token → Option (α × List Token))

/-- Items with commas between them. -/
def parseList : (fuel : Nat) → List Token → Option (List α × List Token)
  | 0, _ => none
  | fuel + 1, tokens => do
      let item ← parseItem tokens
      if item.2.head? = some (.symbol ',') then
        let items ← parseList fuel item.2.tail
        return (item.1 :: items.1, items.2)
      else
        return ([item.1], item.2)

/-- Items with commas between them, in parentheses. -/
def parseTuple (tokens : List Token) : Option (List α × List Token) := do
  if tokens.head? = some (.symbol '(') then
    let items ← parseList parseItem tokens.length tokens.tail
    if items.2.head? = some (.symbol ')') then
      return (items.1, items.2.tail)
    else
      none
  else
    none

end Lists

def parseInsert : List Token → Option Insert
  | .word "INSERT" :: .word "INTO" :: .identifier table :: rest => do
      let columns ← parseTuple parseName rest
      if columns.2.head? = some (.word "VALUES") then
        let tuples ← parseList (parseTuple parseLiteral) columns.2.length columns.2.tail
        if tuples.2 = [] ∨ tuples.2 = [.symbol ';'] then
          return ⟨table, columns.1, tuples.1⟩
        else
          none
      else
        none
  | _ => none

theorem parseLiteral_numberTokens {cs : List Char} {x : ℚ} {rest : List Token}
    (h : readNumber cs = some x) :
    parseLiteral (numberTokens cs ++ rest) = some (.number x, rest) := by
  by_cases hminus : cs.head? = some '-'
  · obtain ⟨ds, rfl⟩ := List.head?_eq_some_iff.mp hminus
    rw [readNumber, Option.ite_none_right_eq_some] at h
    rw [← Option.some.inj h.2]
    rfl
  · rw [Lexeme.readNumber_of_head? hminus, Option.ite_none_right_eq_some] at h
    rw [Lexeme.numberTokens_of_head? hminus, ← Option.some.inj h.2]
    rfl

/-! ## Spelled lists -/

theorem flatMap_intercalate {α β : Type} (f : α → List β) (separator : List α)
    (pieces : List (List α)) : (separator.intercalate pieces).flatMap f =
      (separator.flatMap f).intercalate (pieces.map (List.flatMap f)) := by
  induction pieces with
  | nil => rfl
  | cons piece pieces ih =>
      cases pieces with
      | nil => simp
      | cons next pieces =>
          rw [List.intercalate_cons_cons, List.flatMap_append, List.flatMap_append, ih,
            List.map_cons, List.map_cons, List.map_cons, List.intercalate_cons_cons]

section Lists

variable {ι α : Type} {parseItem : List Token → Option (α × List Token)}
  {spellItem : ι → List Token} {readItem : ι → α}

/-- A list of items is read if every item is. -/
theorem parseList_intercalate {items : List ι} {rest : List Token} {fuel : Nat}
    (hitem : ∀ item ∈ items, ∀ rest,
      parseItem (spellItem item ++ rest) = some (readItem item, rest))
    (hne : items ≠ []) (hfuel : items.length ≤ fuel) (hrest : rest.head? ≠ some (.symbol ',')) :
    parseList parseItem fuel ([.symbol ','].intercalate (items.map spellItem) ++ rest) =
      some (items.map readItem, rest) := by
  induction items generalizing fuel with
  | nil => exact absurd rfl hne
  | cons item items ih =>
      rw [List.length_cons] at hfuel
      rw [List.forall_mem_cons] at hitem
      obtain ⟨fuel, rfl⟩ : ∃ n, fuel = n + 1 := ⟨fuel - 1, by omega⟩
      cases items with
      | nil =>
          rw [List.map_cons, List.map_nil, List.intercalate_singleton, parseList, hitem.1]
          simp [hrest]
      | cons next items =>
          have hfuel' : (next :: items).length ≤ fuel := by omega
          have hread := ih hitem.2 (List.cons_ne_nil _ _) hfuel'
          rw [List.map_cons, List.map_cons, List.intercalate_cons_cons, ← List.map_cons,
            List.append_assoc, List.append_assoc, parseList, hitem.1]
          simp only [Option.bind_eq_bind, Option.bind_some, List.singleton_append, List.head?_cons,
            if_true, List.tail_cons, hread]
          rfl

theorem length_le_length_intercalate {items : List ι}
    (hitem : ∀ item ∈ items, spellItem item ≠ []) :
    items.length ≤ ([Token.symbol ','].intercalate (items.map spellItem)).length := by
  induction items with
  | nil => simp
  | cons item items ih =>
      rw [List.forall_mem_cons] at hitem
      have hpos : 0 < (spellItem item).length := List.length_pos_iff.mpr hitem.1
      cases items with
      | nil =>
          rw [List.map_cons, List.map_nil, List.intercalate_singleton]
          exact hpos
      | cons next items =>
          have hlength := ih hitem.2
          rw [List.map_cons, List.map_cons, List.intercalate_cons_cons, ← List.map_cons,
            List.length_append, List.length_append, List.length_cons]
          omega

/-- The tokens of a list in parentheses. -/
def tupleTokens (spellItem : ι → List Token) (items : List ι) : List Token :=
  .symbol '(' :: ([.symbol ','].intercalate (items.map spellItem) ++ [.symbol ')'])

theorem parseTuple_tupleTokens {items : List ι} {rest : List Token}
    (hitem : ∀ item ∈ items, ∀ rest,
      parseItem (spellItem item ++ rest) = some (readItem item, rest))
    (hspelled : ∀ item ∈ items, spellItem item ≠ []) (hne : items ≠ []) :
    parseTuple parseItem (tupleTokens spellItem items ++ rest) =
      some (items.map readItem, rest) := by
  have hfuel : items.length ≤ (tupleTokens spellItem items ++ rest).length := by
    have hlength := length_le_length_intercalate hspelled
    simp only [tupleTokens, List.length_append, List.length_cons]
    omega
  have hread : parseList parseItem (tupleTokens spellItem items ++ rest).length
      ([.symbol ','].intercalate (items.map spellItem) ++ .symbol ')' :: rest) =
        some (items.map readItem, .symbol ')' :: rest) :=
    parseList_intercalate hitem hne hfuel (by simp)
  have hhead : (tupleTokens spellItem items ++ rest).head? = some (.symbol '(') := rfl
  have htail : (tupleTokens spellItem items ++ rest).tail =
      [.symbol ','].intercalate (items.map spellItem) ++ .symbol ')' :: rest := by
    simp [tupleTokens]
  rw [parseTuple, if_pos hhead, htail, hread]
  rfl

/-- The tokens of a statement that inserts rows into a table. -/
def insertTokens (table : String) (columns : List String) (spellItem : ι → List Token)
    (tuples : List (List ι)) : List Token :=
  .word "INSERT" :: .word "INTO" :: .identifier table ::
    (tupleTokens (fun column => [Token.identifier column]) columns ++ .word "VALUES" ::
      [.symbol ','].intercalate (tuples.map (tupleTokens spellItem)))

/-- A statement is read as the tuples that it was spelled for. -/
theorem parseInsert_insertTokens {table : String} {columns : List String}
    {spellItem : ι → List Token} {readItem : ι → Literal} {tuples : List (List ι)}
    (hitem : ∀ tuple ∈ tuples, ∀ item ∈ tuple, ∀ rest,
      parseLiteral (spellItem item ++ rest) = some (readItem item, rest))
    (hspelled : ∀ tuple ∈ tuples, ∀ item ∈ tuple, spellItem item ≠ [])
    (hcolumns : columns ≠ []) (htuples : tuples ≠ []) (hne : ∀ tuple ∈ tuples, tuple ≠ []) :
    parseInsert (insertTokens table columns spellItem tuples) =
      some ⟨table, columns, tuples.map (List.map readItem)⟩ := by
  have hnames : parseTuple parseName
      (tupleTokens (fun column => [Token.identifier column]) columns ++ .word "VALUES" ::
        [.symbol ','].intercalate (tuples.map (tupleTokens spellItem))) =
      some (columns.map id, .word "VALUES" ::
        [.symbol ','].intercalate (tuples.map (tupleTokens spellItem))) :=
    parseTuple_tupleTokens (fun column _ rest => rfl) (fun column _ => List.cons_ne_nil _ _)
      hcolumns
  have hlength : tuples.length ≤
      ([Token.symbol ','].intercalate (tuples.map (tupleTokens spellItem))).length :=
    length_le_length_intercalate fun tuple _ => List.cons_ne_nil _ _
  have htuple : ∀ tuple ∈ tuples, ∀ rest,
      parseTuple parseLiteral (tupleTokens spellItem tuple ++ rest) =
        some (tuple.map readItem, rest) :=
    fun tuple htuple rest => parseTuple_tupleTokens (hitem tuple htuple) (hspelled tuple htuple)
      (hne tuple htuple)
  have hvalues : parseList (parseTuple parseLiteral)
      (([Token.symbol ','].intercalate (tuples.map (tupleTokens spellItem))).length + 1)
      ([.symbol ','].intercalate (tuples.map (tupleTokens spellItem)) ++ []) =
        some (tuples.map (List.map readItem), []) :=
    parseList_intercalate htuple htuples (Nat.le_succ_of_le hlength) (by simp)
  rw [List.append_nil] at hvalues
  rw [insertTokens, parseInsert, hnames]
  simp only [Option.bind_eq_bind, Option.bind_some, List.head?_cons, if_true, List.tail_cons,
    List.length_cons, hvalues, List.map_id]
  rfl

/-- A statement without tuples is none. -/
theorem parseInsert_insertTokens_nil {table : String} {columns : List String}
    {spellItem : ι → List Token} (hcolumns : columns ≠ []) :
    parseInsert (insertTokens table columns spellItem []) = none := by
  have hnames : parseTuple parseName
      (tupleTokens (fun column => [Token.identifier column]) columns ++ [.word "VALUES"]) =
      some (columns.map id, [.word "VALUES"]) :=
    parseTuple_tupleTokens (fun column _ rest => rfl) (fun column _ => List.cons_ne_nil _ _)
      hcolumns
  rw [insertTokens, parseInsert, List.map_nil, List.intercalate_nil, hnames]
  rfl

end Lists

end Jayvee.Foundation.Sql
