import ProcUnits.Glob.Piece

/-!
The matching of patterns with braces.

With braces the order in which ways to match are tried makes a difference, because not all of
them are. The options of braces are tried one after the other, each up to its end, and the
longest one counts; what follows is held against the name from there on, and a shorter option
is not tried again. Nor is a star inside braces, once something after them has matched.

* `Glob.Search`: a way to match, as far as it has gone;
* `Glob.Search.step`: the next element of the pattern;
* `Glob.Search.run`: the steps up to a `Verdict`.
-/

namespace ProcUnits.Glob

/-- Where a star can take one octet more: the pattern from the star on, and the number of octets
that are taken then. -/
structure Resumption where
  pattern : List Char
  taken : Nat
  deriving Repr

/-- What held where braces were opened. -/
structure Opening where
  taken : Nat
  star : Option Resumption
  deriving Repr

/-- A way to match a name, as far as it has gone. -/
structure Search where
  /-- What is left of the pattern. -/
  pattern : List Char
  /-- The octet of the pattern before that. -/
  before : Char := '\x00'
  /-- The number of octets of the name that are taken. -/
  taken : Nat := 0
  /-- The last star, unless it can take nothing more. -/
  star : Option Resumption := none
  /-- The braces that are open, the innermost first. -/
  openings : List Opening := []
  /-- Where the longest option has ended. -/
  longest : Nat := 0
  deriving Repr

/-- The number of braces that may be open at once. -/
def depthLimit : Nat := 10

/-- What comes next in a pattern that is inside of braces. -/
inductive Skipped where
  /-- The pattern after the comma before the next option. -/
  | option (pattern : List Char)
  /-- The pattern after the closing brace. -/
  | closed (pattern : List Char)
  | unclosed

/-- Passes over the rest of an option, and, unless `stop`, over the options after it. The number
says how many more braces are open, the flag whether a class is. -/
def skipOption (stop : Bool) : Nat → Bool → List Char → Skipped
  | _, _, [] => .unclosed
  | depth, inClass, '\\' :: r =>
    match r with
    | [] => .unclosed
    | _ :: r => skipOption stop depth inClass r
  | depth, _, ']' :: r => skipOption stop depth false r
  | depth, true, _ :: r => skipOption stop depth true r
  | depth, false, '[' :: r => skipOption stop depth true r
  | depth, false, '{' :: r => skipOption stop (depth + 1) false r
  | 0, false, '}' :: r => .closed r
  | depth + 1, false, '}' :: r => skipOption stop depth false r
  | 0, false, ',' :: r => if stop then .option r else skipOption stop 0 false r
  | depth, false, _ :: r => skipOption stop depth false r

namespace Search

/-- Leaves the innermost braces at the end of their longest option. -/
def leave (s : Search) (o : Opening) (rest : List Opening) : Search :=
  { s with
    taken := s.longest, star := o.star, openings := rest
    longest := if rest.isEmpty then 0 else s.longest }

/-- Goes back to the last star of these braces, or on to their next option. If none is left, the
longest one counts; if there is none at all, the star before the braces is the last resort. -/
def retreat (s : Search) : Except Verdict Search :=
  match s.star, s.openings with
  | some p, _ => .ok { s with pattern := p.pattern, taken := p.taken }
  | none, [] => .error .no
  | none, o :: rest =>
    match skipOption true 0 false s.pattern with
    | .unclosed => .error .invalid
    | .option r => .ok { s with pattern := r, before := ',', taken := o.taken }
    | .closed r =>
      if 0 < s.longest then .ok ({ s with pattern := r, before := '}' }.leave o rest)
      else
        match o.star with
        | some p =>
          .ok { s with pattern := p.pattern, taken := p.taken, star := o.star, openings := rest }
        | none => .error .no

/-- Passes a star, after which the pattern goes on with `r`. At the end of an option a star stands
for what is left of all of them. -/
def passStar (s : Search) (name r : List Char) : Except Verdict Search :=
  let star : Option Resumption :=
    if (name[s.taken]?).any (· ≠ '/') then some ⟨s.pattern, s.taken + 1⟩ else none
  let endsOption : Bool :=
    match r with
    | ',' :: _ | '}' :: _ => !s.openings.isEmpty
    | _ => false
  if endsOption then
    match skipOption false 0 false r with
    | .closed r => .ok { s with pattern := r, before := '}', star }
    | _ => .error .invalid
  else .ok { s with pattern := r, before := '*', star }

/-- Takes one octet and goes on with `r`. -/
def take (s : Search) (before : Char) (r : List Char) : Search :=
  { s with pattern := r, before, taken := s.taken + 1 }

/-- Goes on behind an octet that has matched as it is. After braces that a star has left open
that closes them. -/
def takeOctet (s : Search) (c : Char) (r : List Char) : Search :=
  match s.openings with
  | o :: rest =>
    if s.before = '}' then ({ s with longest := s.taken }.leave o rest).take c r else s.take c r
  | [] => s.take c r

/-- Holds the next element of the pattern against the name. -/
def step (name : List Char) (s : Search) : Except Verdict Search :=
  match s.pattern, name[s.taken]? with
  | [], none => .error .yes
  | '*' :: '*' :: r, _ => s.passStar name (dropRepeated r)
  | '*' :: r, _ => s.passStar name r
  | '?' :: r, some d => if d = '/' then s.retreat else .ok (s.take '?' r)
  | '[' :: r, some d =>
    match classOf r with
    | none => .error .invalid
    | some (k, r) =>
      if isOneOf k.negated k.ranges d then .ok (s.take ']' r)
      else { s with pattern := r, before := ']' }.retreat
  | '{' :: r, some _ =>
    if depthLimit ≤ s.openings.length then .error .invalid
    else
      .ok { s with
        pattern := r, before := '{', star := none, openings := ⟨s.taken, s.star⟩ :: s.openings }
  | '\\' :: r, some d =>
    match r with
    | [] => .error .invalid
    | c :: r' =>
      if unescape c = d then .ok (s.take c r') else { s with pattern := r }.retreat
  | c :: r, d? =>
    let ended := { s with pattern := r, before := c, longest := max s.longest s.taken }
    match c, s.openings with
    | '}', o :: rest => .ok (ended.leave o rest)
    | ',', o :: _ => .ok { ended with taken := o.taken, star := none }
    | _, _ => if d? = some c then .ok (s.takeOctet c r) else s.retreat
  | [], some _ => s.retreat

/-- Takes steps up to a verdict. -/
def run (name : List Char) : Nat → Search → Verdict
  | 0, _ => .no
  | n + 1, s =>
    match s.step name with
    | .ok s => run name n s
    | .error v => v

/-- The verdict on a name. Each octet of the pattern is reached at most once for each octet that
a star on one of the levels of braces has taken, which bounds the steps. -/
def verdict (pattern name : List Char) : Verdict :=
  run name (2 * (pattern.length + 1) * Nat.pow (name.length + 1) (depthLimit + 1)) { pattern }

end Search

end ProcUnits.Glob
