import TokenGrammar.Grammar.Parse

namespace TokenGrammar

/-! # The steps of a parse

What a grammar asks for at a place, told as a relation and apart from the parsers that do it:
which token checks are made and in which order, which rules begin and end, and where each part
of a rule stops. A check that fails stands in the journal of every step around it, also where
that step goes on by another way. -/

/-- A part of a parse, from the check of one token up to the fields of a rule. The counts are
those of the items or repetitions that precede the part. -/
inductive Task where
  | check (constraint : Constraint)
  | content (symbol : Symbol) (constraint : Constraint)
  | separator (field : FieldDescriptor)
  | gap (between : Gap) (before : Nat)
  | item (between : Gap) (field : FieldDescriptor) (before : Nat)
  | repetition (between : Gap) (field : FieldDescriptor) (before count : Nat)
  | repetitions (rule : String) (between : Gap) (field : FieldDescriptor) (before least count : Nat)
  | values (rule : Descriptor) (field : FieldDescriptor) (before : Nat)
  | fields (rule : Descriptor) (rest : List FieldDescriptor) (before : Nat)
  | alternative (rule : Descriptor) (field : FieldDescriptor)
  | alternatives (rule : Descriptor) (rest : List FieldDescriptor) (tried : Bool)
  | body (rule : Descriptor)

/-- How a task ends: with a number of values and the place after them, or giving up at a
place. -/
inductive Ending where
  | matched (count : Nat) (next : Cursor)
  | failed (stop : Cursor)

namespace Ending

def cursor : Ending → Cursor
  | matched _ next => next
  | failed stop => stop

def isMatch : Ending → Bool
  | matched _ _ => true
  | failed _ => false

/-- Counts the values that came before. -/
def add (before : Nat) : Ending → Ending
  | matched count next => matched (before + count) next
  | failed stop => failed stop

/-- The ending of a rule, given that of its body: one node, or back at the beginning. -/
def ofBody (start : Cursor) : Ending → Ending
  | matched _ next => matched 1 next
  | failed _ => failed start

end Ending

namespace Event

/-- A failed check at a place. -/
def failureAt (cause : Cause) (cursor : Cursor) : Event := .failure (.atCursor cause cursor)

/-- The journal of a rule that begins at a place, given that of its body. -/
def call (rule : String) (start : Cursor) (journal : List Event) (ending : Ending) :
    List Event :=
  .enter rule start.pos :: journal ++ [.leave rule ending.isMatch ending.cursor.pos]

end Event

/-- What a grammar does from a place on to perform a task, and how that ends. -/
inductive Grammar.Performs (grammar : Grammar) :
    Task → Cursor → List Event → Ending → Prop
  -- One token.
  | anyToken {constraint : Constraint} {start : Cursor}
      (unconstrained : constraint.isEmpty = true) (present : start.peek.isEnd = false) :
      Performs grammar (.check constraint) start [] (.matched 1 start.advance)
  | atEnd {constraint : Constraint} {start : Cursor}
      (unconstrained : constraint.isEmpty = true) (absent : start.peek.isEnd = true) :
      Performs grammar (.check constraint) start [.failureAt .unexpectedEnd start] (.failed start)
  | accepted {constraint : Constraint} {start : Cursor}
      (constrained : constraint.isEmpty = false)
      (found : constraint.find? start.peek = some pattern) :
      Performs grammar (.check constraint) start []
        (.matched 1 (if pattern.lookahead then start else start.advance))
  | refused {constraint : Constraint} {start : Cursor}
      (constrained : constraint.isEmpty = false) (missing : constraint.find? start.peek = none) :
      Performs grammar (.check constraint) start
        [.failureAt (.expected constraint.patterns) start] (.failed start)
  -- The content of a field. A rule looks at its guard first, behind the tokens that it drops.
  | token (check : Performs grammar (.check constraint) start journal ending) :
      Performs grammar (.content .token constraint) start journal ending
  | mark (check : Performs grammar (.check constraint) start journal ending) :
      Performs grammar (.content .mark constraint) start journal ending
  | boxed (content : Performs grammar (.content symbol constraint) start journal ending) :
      Performs grammar (.content (.boxed symbol) constraint) start journal ending
  | unguarded {guard : Constraint}
      (defined : grammar.find? name = some (.ok rule)) (free : guard.isEmpty = true)
      (body : Performs grammar (.body rule) start journal ending) :
      Performs grammar (.content (.rule name) guard) start
        (Event.call rule.name start journal ending) (ending.ofBody start)
  | guarded {guard : Constraint} {start : Cursor}
      (defined : grammar.find? name = some (.ok rule)) (bound : guard.isEmpty = false)
      (check : Performs grammar (.check guard) (start.skip rule.drop) checked
        (.matched count seen))
      (body : Performs grammar (.body rule) start journal ending) :
      Performs grammar (.content (.rule name) guard) start
        (checked ++ Event.call rule.name start journal ending) (ending.ofBody start)
  | guardFails {guard : Constraint} {start : Cursor}
      (defined : grammar.find? name = some (.ok rule)) (bound : guard.isEmpty = false)
      (check : Performs grammar (.check guard) (start.skip rule.drop) checked (.failed stop)) :
      Performs grammar (.content (.rule name) guard) start checked (.failed start)
  -- The separator of a rule, and what lies before an item.
  | separated {field : FieldDescriptor}
      (content : Performs grammar (.content field.symbol field.tokens) start journal
        (.matched count next)) :
      Performs grammar (.separator field) start journal (.matched 0 next)
  | leftOut {field : FieldDescriptor} (optional : field.cardinality = .optional)
      (content : Performs grammar (.content field.symbol field.tokens) start journal
        (.failed stop)) :
      Performs grammar (.separator field) start journal (.matched 0 start)
  | unseparated {field : FieldDescriptor} (required : field.cardinality ≠ .optional)
      (content : Performs grammar (.content field.symbol field.tokens) start journal
        (.failed stop)) :
      Performs grammar (.separator field) start journal (.failed start)
  | plainGap {between : Gap} {start : Cursor} (plain : between.separator = none ∨ before = 0) :
      Performs grammar (.gap between before) start [] (.matched 0 (start.skip between.drop))
  | separatedGap {between : Gap} {start next : Cursor}
      (present : between.separator = some field) (later : before ≠ 0)
      (separator : Performs grammar (.separator field) (start.skip between.drop) journal
        (.matched count next)) :
      Performs grammar (.gap between before) start journal (.matched 0 (next.skip between.drop))
  | brokenGap {between : Gap} {start : Cursor}
      (present : between.separator = some field) (later : before ≠ 0)
      (separator : Performs grammar (.separator field) (start.skip between.drop) journal
        (.failed stop)) :
      Performs grammar (.gap between before) start journal (.failed stop)
  -- Items and their repetitions.
  | item {field : FieldDescriptor}
      (gap : Performs grammar (.gap between before) start first (.matched count middle))
      (content : Performs grammar (.content field.symbol field.tokens) middle second ending) :
      Performs grammar (.item between field before) start (first ++ second) ending
  | itemCutOff (gap : Performs grammar (.gap between before) start journal (.failed stop)) :
      Performs grammar (.item between field before) start journal (.failed stop)
  | plainRepetition {field : FieldDescriptor}
      (plain : count = 0 ∨ field.separator.isEmpty = true)
      (item : Performs grammar (.item between field (before + count)) start journal ending) :
      Performs grammar (.repetition between field before count) start journal ending
  | separatedRepetition {between : Gap} {field : FieldDescriptor} {start : Cursor}
      (later : count ≠ 0) (separated : field.separator.isEmpty = false)
      (check : Performs grammar (.check field.separator) (start.skip between.drop) first
        (.matched values middle))
      (item : Performs grammar (.item between field (before + count)) middle second ending) :
      Performs grammar (.repetition between field before count) start (first ++ second) ending
  | repetitionCutOff {between : Gap} {field : FieldDescriptor} {start : Cursor}
      (later : count ≠ 0) (separated : field.separator.isEmpty = false)
      (check : Performs grammar (.check field.separator) (start.skip between.drop) journal
        (.failed stop)) :
      Performs grammar (.repetition between field before count) start journal (.failed stop)
  -- Repetitions end when there may be no more of them, when one fails and when one consumes
  -- nothing. Too few of them are a failure of their own unless one has failed.
  | full {field : FieldDescriptor}
      (last : field.size.allowsMore count = false) (enough : least ≤ count) :
      Performs grammar (.repetitions rule between field before least count) start []
        (.matched 0 start)
  | fullShort {field : FieldDescriptor}
      (last : field.size.allowsMore count = false) (short : count < least) :
      Performs grammar (.repetitions rule between field before least count) start
        [.failureAt (field.tooFew rule least count) start] (.failed start)
  | stopped {field : FieldDescriptor}
      (allowed : field.size.allowsMore count = true)
      (repetition : Performs grammar (.repetition between field before count) start journal
        (.failed stop))
      (enough : least ≤ count) :
      Performs grammar (.repetitions rule between field before least count) start journal
        (.matched 0 start)
  | stoppedShort {field : FieldDescriptor}
      (allowed : field.size.allowsMore count = true)
      (repetition : Performs grammar (.repetition between field before count) start journal
        (.failed stop))
      (short : count < least) :
      Performs grammar (.repetitions rule between field before least count) start journal
        (.failed start)
  | stalled {field : FieldDescriptor} {start next : Cursor}
      (allowed : field.size.allowsMore count = true)
      (repetition : Performs grammar (.repetition between field before count) start journal
        (.matched values next))
      (idle : next.pos = start.pos) (enough : least ≤ count + 1) :
      Performs grammar (.repetitions rule between field before least count) start journal
        (.matched 1 next)
  | stalledShort {field : FieldDescriptor} {start next : Cursor}
      (allowed : field.size.allowsMore count = true)
      (repetition : Performs grammar (.repetition between field before count) start journal
        (.matched values next))
      (idle : next.pos = start.pos) (short : count + 1 < least) :
      Performs grammar (.repetitions rule between field before least count) start
        (journal ++ [.failureAt (field.tooFew rule least (count + 1)) next]) (.failed next)
  | repeats {field : FieldDescriptor} {start middle : Cursor}
      (allowed : field.size.allowsMore count = true)
      (repetition : Performs grammar (.repetition between field before count) start first
        (.matched values middle))
      (moved : middle.pos ≠ start.pos)
      (more : Performs grammar (.repetitions rule between field before least (count + 1)) middle
        second ending) :
      Performs grammar (.repetitions rule between field before least count) start (first ++ second)
        (ending.add 1)
  -- The fields of a sequence.
  | single {field : FieldDescriptor} (cardinality : field.cardinality = .single)
      (item : Performs grammar (.item (.ofRule rule) field before) start journal ending) :
      Performs grammar (.values rule field before) start journal ending
  | present {field : FieldDescriptor} (cardinality : field.cardinality = .optional)
      (item : Performs grammar (.item (.ofRule rule) field before) start journal
        (.matched count next)) :
      Performs grammar (.values rule field before) start journal (.matched count next)
  | absent {field : FieldDescriptor} (cardinality : field.cardinality = .optional)
      (item : Performs grammar (.item (.ofRule rule) field before) start journal (.failed stop)) :
      Performs grammar (.values rule field before) start journal (.matched 0 start)
  | repeated {rule : Descriptor} {field : FieldDescriptor}
      (cardinality : field.cardinality = .repeated)
      (repetitions : Performs grammar
        (.repetitions rule.name (.ofRule rule) field before field.size.min 0) start journal
        ending) :
      Performs grammar (.values rule field before) start journal ending
  | nothing : Performs grammar (.fields rule [] 0) start [.failureAt .emptyMatch start]
      (.failed start)
  | noMoreFields (some : before ≠ 0) :
      Performs grammar (.fields rule [] before) start [] (.matched 0 start)
  | fields (values : Performs grammar (.values rule field before) start first
        (.matched count middle))
      (more : Performs grammar (.fields rule rest (before + count)) middle second ending) :
      Performs grammar (.fields rule (field :: rest) before) start (first ++ second)
        (ending.add count)
  | fieldFails
      (values : Performs grammar (.values rule field before) start journal (.failed stop)) :
      Performs grammar (.fields rule (field :: rest) before) start journal (.failed stop)
  -- The fields of a choice, all from the same place.
  | lone {field : FieldDescriptor} (cardinality : field.cardinality ≠ .repeated)
      (content : Performs grammar (.content field.symbol field.tokens) start journal ending) :
      Performs grammar (.alternative rule field) start journal ending
  | list {rule : Descriptor} {field : FieldDescriptor}
      (cardinality : field.cardinality = .repeated)
      (repetitions : Performs grammar
        (.repetitions rule.name .nothing field 0 (max 1 field.size.min) 0) start journal
        ending) :
      Performs grammar (.alternative rule field) start journal ending
  | noAlternative : Performs grammar (.alternatives rule [] false) start
      [.failureAt .emptyMatch start] (.failed start)
  | noMoreAlternatives :
      Performs grammar (.alternatives rule [] true) start [] (.failed start)
  | chosen (alternative : Performs grammar (.alternative rule field) start journal
        (.matched count next)) :
      Performs grammar (.alternatives rule (field :: rest) tried) start journal
        (.matched count next)
  | passedOver
      (alternative : Performs grammar (.alternative rule field) start first (.failed stop))
      (more : Performs grammar (.alternatives rule rest true) start second ending) :
      Performs grammar (.alternatives rule (field :: rest) tried) start (first ++ second) ending
  | sequence {rule : Descriptor} (combinator : rule.combinator = .seq)
      (fields : Performs grammar (.fields rule rule.fields 0) start journal ending) :
      Performs grammar (.body rule) start journal ending
  | choice {rule : Descriptor} {start : Cursor} (combinator : rule.combinator = .oneOf)
      (alternatives : Performs grammar (.alternatives rule rule.fields false)
        (start.skip rule.drop) journal ending) :
      Performs grammar (.body rule) start journal ending

/-- A grammar goes on in one way only from every place. -/
theorem Grammar.Performs.unique {grammar : Grammar}
    (first : grammar.Performs task start journal ending)
    (second : grammar.Performs task start otherJournal otherEnding) :
    journal = otherJournal ∧ ending = otherEnding := by
  -- Two different steps for one task either have conditions that exclude each other or begin with
  -- the same part, which would have to match and to fail.
  induction first generalizing otherJournal otherEnding <;> cases second <;> grind

end TokenGrammar
