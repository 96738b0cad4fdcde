import Mathlib.Algebra.GroupWithZero.Nat
import Mathlib.Data.List.Basic
import MissionControl.Foundations.Lists

/-!
Tables as texts of comma-separated values, by the grammar of RFC 4180: a field is text without
quotes, commas and line breaks, or is enclosed in quotes, with those in it doubled. A record ends
with a line feed, which a carriage return may precede; after the last one it may be missing.
-/

set_option autoImplicit false
set_option relaxedAutoImplicit false

namespace MissionControl.Foundations.Csv

abbrev Field := List Char

abbrev Table := List (List Field)

/-! ### Reading -/

/-- What may stand in a field that is not enclosed. -/
def isTextData (c : Char) : Bool := c ≠ ',' && c ≠ '"' && c ≠ '\n' && c ≠ '\r'

/-- Where the reader is: at the beginning of a line or of another field, in a field, in one that is
enclosed, behind the quote that ends it, or behind a carriage return. -/
inductive Mode where
  | line
  | field
  | plain
  | quoted
  | closed
  | carriage
  deriving DecidableEq

inductive Action where
  | append (mode : Mode)
  | goTo (mode : Mode)
  | endField
  | endRecord

/-- What the reader does with a character; `none` is a text that is no table. -/
def action : Mode → Char → Option Action
  | .quoted, c => if c = '"' then some (.goTo .closed) else some (.append .quoted)
  | .carriage, c => if c = '\n' then some .endRecord else none
  | mode, c =>
    if c = ',' then some .endField
    else if c = '\n' then some .endRecord
    else if c = '\r' then some (.goTo .carriage)
    else if c = '"' then
      match mode with
      | .plain => none
      | .closed => some (.append .quoted)
      | _ => some (.goTo .quoted)
    else if mode = .closed then none
    else some (.append .plain)

/-- The table, when the text ends. -/
def finish (mode : Mode) (field : Field) (fields : List Field) (records : Table) : Option Table :=
  match mode with
  | .line => some records
  | .quoted => none
  | .carriage => none
  | _ => some (records ++ [fields ++ [field]])

def parseFrom (mode : Mode) (field : Field) (fields : List Field) (records : Table) :
    List Char → Option Table
  | [] => finish mode field fields records
  | c :: cs =>
    match action mode c with
    | none => none
    | some (.append mode') => parseFrom mode' (field ++ [c]) fields records cs
    | some (.goTo mode') => parseFrom mode' field fields records cs
    | some .endField => parseFrom .field [] (fields ++ [field]) records cs
    | some .endRecord => parseFrom .line [] [] (records ++ [fields ++ [field]]) cs

def parse (cs : List Char) : Option Table := parseFrom .line [] [] [] cs

/-! ### Writing -/

/-- `text.replace(/"/g, '""')` between quotes. -/
def enclose (field : Field) : List Char :=
  '"' :: field.flatMap (fun c => if c = '"' then ['"', '"'] else [c]) ++ ['"']

/-- Records joined by line feeds, of fields joined by commas. -/
def write (encode : Field → List Char) (table : Table) : List Char :=
  ['\n'].intercalate (table.map fun record => [','].intercalate (record.map encode))

/-- A way to write fields: as they are, or enclosed where that is needed. -/
def Encoding (encode : Field → List Char) : Prop :=
  ∀ field, encode field = field ∨ (encode field = enclose field ∧ field.all isTextData = false)

/-! ### Reading what is written -/

section

variable {fields : List Field} {records : Table}

theorem action_text {mode : Mode} (hmode : mode = .line ∨ mode = .field ∨ mode = .plain) {c : Char}
    (hc : isTextData c = true) : action mode c = some (.append .plain) := by
  simp only [isTextData, Bool.and_eq_true, decide_eq_true_eq] at hc
  obtain ⟨⟨⟨hcomma, hquote⟩, hline⟩, hreturn⟩ := hc
  rcases hmode with rfl | rfl | rfl <;> simp [action, hcomma, hquote, hline, hreturn]

theorem parseFrom_plain {text : Field} (h : ∀ c ∈ text, isTextData c = true) (field : Field)
    (rest : List Char) :
    parseFrom .plain field fields records (text ++ rest) =
      parseFrom .plain (field ++ text) fields records rest := by
  induction text generalizing field with
  | nil => simp
  | cons c text ih =>
    rw [List.cons_append, parseFrom, action_text (.inr (.inr rfl)) (h c List.mem_cons_self)]
    simp only
    rw [ih fun d hd => h d (List.mem_cons_of_mem c hd), List.append_assoc]
    rfl

theorem parseFrom_quoted (text field : Field) (rest : List Char) :
    parseFrom .quoted field fields records
        (text.flatMap (fun c => if c = '"' then ['"', '"'] else [c]) ++ '"' :: rest) =
      parseFrom .closed (field ++ text) fields records rest := by
  induction text generalizing field with
  | nil => simp [parseFrom, action]
  | cons c text ih =>
    rw [List.flatMap_cons, List.append_assoc]
    have hstep : ∀ cs, parseFrom .quoted field fields records
        ((if c = '"' then ['"', '"'] else [c]) ++ cs) =
        parseFrom .quoted (field ++ [c]) fields records cs := by
      intro cs
      by_cases hc : c = '"'
      · subst hc
        simp [parseFrom, action]
      · simp [parseFrom, action, hc]
    rw [hstep, ih, List.append_assoc]
    rfl

/-- The modes in which a field may end. -/
def Ends (mode : Mode) : Prop :=
  mode = .line ∨ mode = .field ∨ mode = .plain ∨ mode = .closed

/-- A field that is written well is read back, and the reader is where a field may end. -/
theorem exists_parseFrom_field (fields : List Field) (records : Table) {mode : Mode}
    (hmode : mode = .line ∨ mode = .field)
    {text : Field} {written : List Char}
    (h : (written = text ∧ text.all isTextData = true) ∨ written = enclose text)
    (rest : List Char) :
    ∃ mode', Ends mode' ∧ (mode' = .line → mode = .line) ∧
      parseFrom mode [] fields records (written ++ rest) =
        parseFrom mode' text fields records rest := by
  rcases h with ⟨rfl, htext⟩ | rfl
  · rw [List.all_eq_true] at htext
    cases written with
    | nil =>
      rcases hmode with rfl | rfl
      · exact ⟨.line, .inl rfl, fun _ => rfl, rfl⟩
      · exact ⟨.field, .inr (.inl rfl), (by simp), rfl⟩
    | cons c text =>
      refine ⟨.plain, .inr (.inr (.inl rfl)), by simp, ?_⟩
      have hstart : mode = .line ∨ mode = .field ∨ mode = .plain := by
        rcases hmode with rfl | rfl <;> simp
      rw [List.cons_append, parseFrom, action_text hstart (htext c List.mem_cons_self)]
      simp only
      rw [parseFrom_plain fun d hd => htext d (List.mem_cons_of_mem c hd)]
      rfl
  · refine ⟨.closed, .inr (.inr (.inr rfl)), by simp, ?_⟩
    have hopen : action mode '"' = some (.goTo .quoted) := by
      rcases hmode with rfl | rfl <;> rfl
    rw [enclose, List.cons_append, List.cons_append, parseFrom, hopen]
    simp only
    rw [List.append_assoc, List.singleton_append, parseFrom_quoted, List.nil_append]

theorem parseFrom_comma {mode : Mode} (hmode : Ends mode) (field : Field) (rest : List Char) :
    parseFrom mode field fields records (',' :: rest) =
      parseFrom .field [] (fields ++ [field]) records rest := by
  rcases hmode with rfl | rfl | rfl | rfl <;> simp [parseFrom, action]

theorem parseFrom_feed {mode : Mode} (hmode : Ends mode) (field : Field) (rest : List Char) :
    parseFrom mode field fields records ('\n' :: rest) =
      parseFrom .line [] [] (records ++ [fields ++ [field]]) rest := by
  rcases hmode with rfl | rfl | rfl | rfl <;> simp [parseFrom, action]

end

/-- The rest of a text behind a record: nothing, or the next line. -/
def afterRecord (records : Table) : Option (List Char) → Option Table
  | none => some records
  | some rest => parseFrom .line [] [] records rest

def feed : Option (List Char) → List Char
  | none => []
  | some rest => '\n' :: rest

section

variable {encode : Field → List Char}

/-- Every field is written as it is only if it holds no special characters. -/
def Legible (encode : Field → List Char) (field : Field) : Prop :=
  encode field = field → field.all isTextData = true

theorem written_of_legible (hencode : Encoding encode) {field : Field}
    (h : Legible encode field) :
    (encode field = field ∧ field.all isTextData = true) ∨ encode field = enclose field := by
  rcases hencode field with heq | ⟨heq, -⟩
  · exact .inl ⟨heq, h heq⟩
  · exact .inr heq

/-- The fields of a record after the first. -/
theorem parseFrom_fields (hencode : Encoding encode) {more : List Field} (hne : more ≠ [])
    (hmore : ∀ field ∈ more, Legible encode field) (fields : List Field) (records : Table)
    (rest : Option (List Char)) :
    parseFrom .field [] fields records ([','].intercalate (more.map encode) ++ feed rest) =
      afterRecord (records ++ [fields ++ more]) rest := by
  induction more generalizing fields with
  | nil => exact absurd rfl hne
  | cons field more ih =>
    have hwritten := written_of_legible hencode (hmore field List.mem_cons_self)
    by_cases hlast : more = []
    · subst hlast
      obtain ⟨mode, hmode, hline, hread⟩ := exists_parseFrom_field fields
        records (.inr rfl) hwritten (feed rest)
      rw [List.map_singleton, List.intercalate_singleton, hread]
      cases rest with
      | none =>
        rcases hmode with rfl | rfl | rfl | rfl
        · cases hline rfl
        all_goals rfl
      | some rest => exact parseFrom_feed hmode field rest
    · have hmap : more.map encode ≠ [] := by simpa using hlast
      rw [List.map_cons, List.intercalate_cons_of_ne_nil hmap, List.append_assoc, List.append_assoc]
      obtain ⟨mode, hmode, -, hread⟩ := exists_parseFrom_field fields
        records (.inr rfl) hwritten
        ([','] ++ ([','].intercalate (more.map encode) ++ feed rest))
      rw [hread, List.singleton_append, parseFrom_comma hmode,
        ih hlast (fun f hf => hmore f (List.mem_cons_of_mem field hf)), List.append_assoc]
      rfl

/-- A record of two fields or more, from the beginning of its line on. -/
theorem parseFrom_record (hencode : Encoding encode) {record : List Field}
    (hlength : 2 ≤ record.length) (hrecord : ∀ field ∈ record, Legible encode field)
    (records : Table) (rest : Option (List Char)) :
    parseFrom .line [] [] records ([','].intercalate (record.map encode) ++ feed rest) =
      afterRecord (records ++ [record]) rest := by
  cases record with
  | nil => simp at hlength
  | cons field more =>
    have hmore : more ≠ [] := by
      rintro rfl
      simp at hlength
    have hmap : more.map encode ≠ [] := by simpa using hmore
    have hwritten := written_of_legible hencode (hrecord field List.mem_cons_self)
    rw [List.map_cons, List.intercalate_cons_of_ne_nil hmap, List.append_assoc, List.append_assoc]
    obtain ⟨mode, hmode, -, hread⟩ := exists_parseFrom_field []
      records (.inl rfl) hwritten
      ([','] ++ ([','].intercalate (more.map encode) ++ feed rest))
    rw [hread, List.singleton_append, parseFrom_comma hmode, List.nil_append,
      parseFrom_fields hencode hmore fun f hf => hrecord f (List.mem_cons_of_mem field hf)]
    rfl

theorem parseFrom_write (hencode : Encoding encode) {table : Table}
    (hlength : ∀ record ∈ table, 2 ≤ record.length)
    (htable : ∀ record ∈ table, ∀ field ∈ record, Legible encode field) (records : Table) :
    parseFrom .line [] [] records (write encode table) = some (records ++ table) := by
  induction table generalizing records with
  | nil => simp [write, parseFrom, finish]
  | cons record table ih =>
    have hrecord := parseFrom_record hencode (hlength record List.mem_cons_self)
      (htable record List.mem_cons_self) records
    by_cases hlast : table = []
    · subst hlast
      have hread := hrecord none
      rw [feed, List.append_nil] at hread
      rw [write, List.map_singleton, List.intercalate_singleton, hread]
      rfl
    · have hmap : (table.map fun record => [','].intercalate (record.map encode)) ≠ [] := by
        simpa using hlast
      have hread := hrecord (some (write encode table))
      rw [write, List.map_cons, List.intercalate_cons_of_ne_nil hmap, List.append_assoc,
        List.singleton_append]
      refine hread.trans ?_
      rw [afterRecord, ih (fun r hr => hlength r (List.mem_cons_of_mem record hr))
        (fun r hr => htable r (List.mem_cons_of_mem record hr)), List.append_assoc]
      rfl

end

/-! ### What a text that is read has to hold -/

/-- The characters that a field takes up at least. -/
def cost (field : Field) : Nat :=
  if field.all isTextData then field.length else field.length + field.count '"' + 2

/-- The characters of a field so far. -/
def held (field : Field) : Mode → Nat
  | .quoted => field.length + field.count '"' + 1
  | .closed => field.length + field.count '"' + 2
  | .carriage => cost field + 1
  | _ => cost field

/-- The characters of fields, each with a separator. -/
def fieldsCost (fields : List Field) : Nat := (fields.map fun field => cost field + 1).sum

def tableCost (table : Table) : Nat := (table.map fieldsCost).sum

@[simp] theorem fieldsCost_snoc (fields : List Field) (field : Field) :
    fieldsCost (fields ++ [field]) = fieldsCost fields + (cost field + 1) := by
  simp [fieldsCost]

@[simp] theorem tableCost_snoc (table : Table) (record : List Field) :
    tableCost (table ++ [record]) = tableCost table + fieldsCost record := by
  simp [tableCost]

theorem length_le_cost (field : Field) : field.length ≤ cost field := by
  unfold cost
  split <;> omega

theorem cost_le (field : Field) : cost field ≤ field.length + field.count '"' + 2 := by
  unfold cost
  split <;> omega

theorem add_count_le_cost (field : Field) : field.length + field.count '"' ≤ cost field := by
  unfold cost
  split
  · rename_i h
    have hnone : field.count '"' = 0 := by
      rw [List.count_eq_zero]
      intro hmem
      exact absurd (List.all_eq_true.mp h _ hmem) (by decide)
    omega
  · omega

theorem cost_append_le {c : Char} (hc : isTextData c = true) (field : Field) :
    cost (field ++ [c]) ≤ cost field + 1 := by
  have hquote : c ≠ '"' := by
    rintro rfl
    exact absurd hc (by decide)
  unfold cost
  rw [List.all_append, List.length_append, List.count_append]
  cases field.all isTextData
  · simp [hc, hquote]
    omega
  · simp [hc]

theorem isTextData_of_ne {c : Char} (hcomma : c ≠ ',') (hfeed : c ≠ '\n') (hreturn : c ≠ '\r')
    (hquote : c ≠ '"') : isTextData c = true := by
  simp [isTextData, hcomma, hfeed, hreturn, hquote]

/-- What an action adds is paid by its character. -/
def Paid (field : Field) (mode : Mode) (c : Char) : Action → Prop
  | .append mode' => held (field ++ [c]) mode' ≤ held field mode + 1
  | .goTo mode' => held field mode' ≤ held field mode + 1
  | .endField => cost field ≤ held field mode
  | .endRecord => cost field ≤ held field mode

/-- What the reader does outside of quotes. -/
theorem action_cases {mode : Mode} (hquoted : mode ≠ .quoted) (hcarriage : mode ≠ .carriage)
    {c : Char} {act : Action} (h : action mode c = some act) :
    act = .endField ∨ act = .endRecord ∨ act = .goTo .carriage ∨
      (c = '"' ∧ mode = .closed ∧ act = .append .quoted) ∨
      (mode ≠ .closed ∧ act = .goTo .quoted) ∨
      (isTextData c = true ∧ mode ≠ .closed ∧ act = .append .plain) := by
  by_cases hcomma : c = ','
  · left
    cases mode <;> simp_all [action]
  by_cases hfeed : c = '\n'
  · right; left
    cases mode <;> simp_all [action]
  by_cases hreturn : c = '\r'
  · right; right; left
    cases mode <;> simp_all [action]
  by_cases hquote : c = '"'
  · subst hquote
    cases mode <;> simp_all [action]
  · have htext := isTextData_of_ne hcomma hfeed hreturn hquote
    cases mode <;> simp_all [action]

theorem cost_le_held (field : Field) (mode : Mode) (hquoted : mode ≠ .quoted) :
    cost field ≤ held field mode := by
  have hhigh := cost_le field
  cases mode with
  | quoted => exact absurd rfl hquoted
  | closed => exact hhigh
  | carriage => exact Nat.le_succ _
  | line => exact Nat.le_refl _
  | field => exact Nat.le_refl _
  | plain => exact Nat.le_refl _

theorem paid_of_action {mode : Mode} {c : Char} {act : Action} (h : action mode c = some act)
    (field : Field) : Paid field mode c act := by
  have hlow := add_count_le_cost field
  have hadded : (field ++ [c]).length + (field ++ [c]).count '"' ≤
      field.length + field.count '"' + if c = '"' then 2 else 1 := by
    rw [List.length_append, List.count_append]
    by_cases hc : c = '"' <;> simp [hc] <;> omega
  by_cases hquoted : mode = .quoted
  · subst hquoted
    simp only [action] at h
    split at h
    · obtain rfl := Option.some.inj h
      simp only [Paid, held]
      omega
    · rename_i hc
      obtain rfl := Option.some.inj h
      rw [if_neg hc] at hadded
      simp only [Paid, held]
      omega
  · have hcost := cost_le_held field mode hquoted
    by_cases hcarriage : mode = .carriage
    · subst hcarriage
      simp only [action] at h
      split at h
      · obtain rfl := Option.some.inj h
        exact hcost
      · cases h
    · rcases action_cases hquoted hcarriage h with
        rfl | rfl | rfl | ⟨rfl, rfl, rfl⟩ | ⟨hclosed, rfl⟩ | ⟨htext, hclosed, rfl⟩
      · exact hcost
      · exact hcost
      · exact Nat.succ_le_succ hcost
      · rw [if_pos rfl] at hadded
        simp only [Paid, held]
        omega
      · simp only [Paid, held]
        omega
      · have happend := cost_append_le htext field
        simp only [Paid, held]
        omega

/-- A text that is read is not shorter than what its table costs, but for the last separator. -/
theorem tableCost_le {cs : List Char} {mode : Mode} {field : Field} {fields : List Field}
    {records table : Table} (h : parseFrom mode field fields records cs = some table) :
    tableCost table ≤ tableCost records + fieldsCost fields + held field mode + cs.length + 1 := by
  induction cs generalizing mode field fields records with
  | nil =>
    have hfield : mode ≠ .line → mode ≠ .quoted → mode ≠ .carriage →
        table = records ++ [fields ++ [field]] := by
      intro hline hquoted hcarriage
      rw [parseFrom] at h
      cases mode <;> simp_all [finish]
    by_cases hline : mode = .line
    · subst hline
      obtain rfl := Option.some.inj h
      omega
    by_cases hquoted : mode = .quoted
    · subst hquoted
      cases h
    by_cases hcarriage : mode = .carriage
    · subst hcarriage
      cases h
    have hcost := cost_le_held field mode hquoted
    rw [hfield hline hquoted hcarriage, tableCost_snoc, fieldsCost_snoc]
    omega
  | cons c cs ih =>
    rw [parseFrom] at h
    cases hact : action mode c with
    | none =>
      rw [hact] at h
      cases h
    | some act =>
      have hpaid := paid_of_action hact field
      rw [hact] at h
      cases act with
      | append mode' =>
        have hrest := ih h
        simp only [Paid] at hpaid
        simp only [List.length_cons]
        omega
      | goTo mode' =>
        have hrest := ih h
        simp only [Paid] at hpaid
        simp only [List.length_cons]
        omega
      | endField =>
        have hrest := ih h
        have hnone : held [] .field = 0 := rfl
        simp only [Paid] at hpaid
        rw [fieldsCost_snoc] at hrest
        simp only [List.length_cons]
        omega
      | endRecord =>
        have hrest := ih h
        have hnone : held [] .line = 0 := rfl
        have hempty : fieldsCost [] = 0 := rfl
        simp only [Paid] at hpaid
        rw [tableCost_snoc, fieldsCost_snoc] at hrest
        simp only [List.length_cons]
        omega

/-! ### Round trips -/

section

variable {encode : Field → List Char}

theorem length_enclose (field : Field) :
    (enclose field).length = field.length + field.count '"' + 2 := by
  have hbody : (field.flatMap fun c => if c = '"' then ['"', '"'] else [c]).length =
      field.length + field.count '"' := by
    induction field with
    | nil => rfl
    | cons c field ih =>
      rw [List.flatMap_cons, List.length_append, ih, List.count_cons]
      by_cases hc : c = '"' <;> simp [hc] <;> omega
  rw [enclose, List.length_append, List.length_cons, hbody]
  rfl

/-- What is written is no longer than its field costs, and shorter only if it is not legible. -/
theorem length_encode_le (hencode : Encoding encode) (field : Field) :
    (encode field).length ≤ cost field ∧
      ((encode field).length = cost field → Legible encode field) := by
  rcases hencode field with heq | ⟨heq, hspecial⟩
  · rw [heq]
    refine ⟨length_le_cost field, fun hcost _ => ?_⟩
    by_contra hspecial
    rw [cost, if_neg hspecial] at hcost
    omega
  · have hcost : (encode field).length = cost field := by
      rw [heq, length_enclose, cost, hspecial]
      rfl
    refine ⟨Nat.le_of_eq hcost, fun _ hplain => ?_⟩
    have hlong := congrArg List.length (heq.symm.trans hplain)
    rw [length_enclose] at hlong
    omega

theorem length_intercalate {sep : Char} {texts : List (List Char)} (hne : texts ≠ []) :
    ([sep].intercalate texts).length + 1 = (texts.map fun text => text.length + 1).sum := by
  induction texts with
  | nil => exact absurd rfl hne
  | cons text texts ih =>
    by_cases hlast : texts = []
    · subst hlast
      simp
    · rw [List.intercalate_cons_of_ne_nil hlast, List.map_cons, List.sum_cons, ← ih hlast,
        List.length_append, List.length_append, List.length_singleton]
      omega

/-- The characters of what is written, with one more for the last separator. -/
theorem length_write (encode : Field → List Char) (table : Table) (htable : table ≠ [])
    (hrecords : ∀ record ∈ table, record ≠ []) : (write encode table).length + 1 =
      (table.map fun record => (record.map fun field => (encode field).length + 1).sum).sum := by
  have hmap : (table.map fun record => [','].intercalate (record.map encode)) ≠ [] := by
    simpa using htable
  rw [write, length_intercalate hmap, List.map_map]
  congr 1
  refine List.map_congr_left fun record hrecord => ?_
  have hfields : record.map encode ≠ [] := by simpa using hrecords record hrecord
  rw [Function.comp_apply, length_intercalate hfields, List.map_map]
  rfl

theorem sum_map_le {α : Type} {f g : α → Nat} {l : List α} (h : ∀ a ∈ l, f a ≤ g a) :
    (l.map f).sum ≤ (l.map g).sum ∧
      ((l.map g).sum ≤ (l.map f).sum → ∀ a ∈ l, f a = g a) := by
  induction l with
  | nil => simp
  | cons a l ih =>
    obtain ⟨hle, heq⟩ := ih fun b hb => h b (List.mem_cons_of_mem a hb)
    have ha := h a List.mem_cons_self
    simp only [List.map_cons, List.sum_cons, List.forall_mem_cons]
    exact ⟨by omega, fun hsum => ⟨by omega, heq (by omega)⟩⟩

/-- A table of two columns or more is read back exactly if every field is legible. -/
theorem parse_write_iff (hencode : Encoding encode) {table : Table} (htable : table ≠ [])
    (hlength : ∀ record ∈ table, 2 ≤ record.length) :
    parse (write encode table) = some table ↔
      ∀ record ∈ table, ∀ field ∈ record, Legible encode field := by
  constructor
  · intro hread
    have hcost := tableCost_le hread
    have hempty : tableCost [] + fieldsCost [] + held [] .line = 0 := rfl
    have hwritten := length_write encode table htable fun record hrecord => by
      rintro rfl
      exact absurd (hlength [] hrecord) (by simp)
    have hrecord : ∀ record ∈ table,
        (record.map fun field => (encode field).length + 1).sum ≤ fieldsCost record ∧
        (fieldsCost record ≤ (record.map fun field => (encode field).length + 1).sum →
          ∀ field ∈ record, (encode field).length + 1 = cost field + 1) :=
      fun record _ => sum_map_le fun field _ =>
        Nat.succ_le_succ (length_encode_le hencode field).1
    obtain ⟨-, hall⟩ := sum_map_le fun record hmem => (hrecord record hmem).1
    have heq := hall (show tableCost table ≤ _ by omega)
    intro record hmem field hfield
    have hsame := (hrecord record hmem).2 (Nat.le_of_eq (heq record hmem).symm) field hfield
    exact (length_encode_le hencode field).2 (by omega)
  · intro hlegible
    have hread := parseFrom_write hencode hlength hlegible []
    rwa [List.nil_append] at hread

end

end MissionControl.Foundations.Csv
