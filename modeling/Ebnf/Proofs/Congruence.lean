import Ebnf.Proofs.Instances

/-!
# What a reading depends on

What is read for an entity depends on how that entity is read and on what is read for the entities
that its instructions name, and so on. Two programs that have the procedures of all these in common
read every text alike, whatever other procedures they have.

* `Op.targets`: the entities that instructions name;
* `Op.run_congr`: instructions depend on what is read for these;
* `Program.Shares`: the procedures that two programs have in common;
* `Program.Shares.read_eq`: such programs read alike.
-/

namespace Ebnf

/-! ## 1. Instructions -/

/-- The entity that a token reads. -/
def Token.target? : Token → Option Name
  | .entity target => some target
  | _ => none

mutual

/-- The entities that an instruction names, in order. -/
def Op.targets : Op → List Name
  | .leaf _ token _ => token.target?.toList
  | .all _ ops => targetsOfOps ops
  | .any _ ops => targetsOfOps ops

/-- The entities that several instructions name. -/
def targetsOfOps : List Op → List Name
  | [] => []
  | op :: ops => op.targets ++ targetsOfOps ops

end

mutual

/-- The instructions of a plan name what the plan refers to. -/
theorem Plan.targets_op {patterns : Patterns} {dest : Nat → Destination} (q : Nat) :
    ∀ p : Plan, (p.op patterns dest q).targets = p.references
  | .leaf mods symbol slot => by cases symbol <;> rfl
  | .node mods choice parts => by
    rw [Plan.op, Plan.references, ← Plan.targets_opsOf q parts]
    cases choice <;> rfl

theorem Plan.targets_opsOf {patterns : Patterns} {dest : Nat → Destination} (q : Nat) :
    ∀ ps : List Plan, targetsOfOps (Plan.opsOf patterns dest q ps) = Plan.referencesOf ps
  | [] => rfl
  | p :: ps => by
    rw [Plan.opsOf, targetsOfOps, Plan.targets_op, Plan.targets_opsOf, Plan.referencesOf]

end

section

variable {src : Source} {inner inner' : Name → Run (Option (Option Value))}

theorem Token.run_congr {token : Token} (h : ∀ t ∈ token.target?.toList, inner t = inner' t)
    (d : Destination) : token.run src inner d = token.run src inner' d := by
  cases token with
  | literal text witness => rfl
  | pattern shown find => rfl
  | entity target => rw [Token.run, Token.run, h target (List.mem_singleton_self target)]

mutual

/-- What an instruction does depends on what is read for the entities that it names. -/
theorem Op.run_congr : ∀ {op : Op}, (∀ t ∈ op.targets, inner t = inner' t) →
    op.run src inner = op.run src inner'
  | .leaf mods token d, h => by rw [Op.run, Op.run, Token.run_congr h]
  | .all mods ops, h => by rw [Op.run, Op.run, runAll_congr h]
  | .any mods ops, h => by rw [Op.run, Op.run, runAny_congr h]

theorem runAll_congr : ∀ {ops : List Op}, (∀ t ∈ targetsOfOps ops, inner t = inner' t) →
    runAll src inner ops = runAll src inner' ops
  | [], _ => rfl
  | op :: ops, h => by
    rw [runAll, runAll, Op.run_congr fun t ht => h t (List.mem_append_left _ ht),
      runAll_congr fun t ht => h t (List.mem_append_right _ ht)]

theorem runAny_congr : ∀ {ops : List Op}, (∀ t ∈ targetsOfOps ops, inner t = inner' t) →
    runAny src inner ops = runAny src inner' ops
  | [], _ => rfl
  | op :: ops, h => by
    rw [runAny, runAny, Op.run_congr fun t ht => h t (List.mem_append_left _ ht),
      runAny_congr fun t ht => h t (List.mem_append_right _ ht)]

end

end

/-! ## 2. Programs -/

namespace Program

/-- Two programs have some procedures in common, and with them those of all entities that these
    name. -/
structure Shares (R : Name → Prop) (p p' : Program) : Prop where
  procedure : ∀ n, R n → p.procedure? n = p'.procedure? n
  onward : ∀ n, R n → ∀ proc op, p.procedure? n = some proc → proc.body = some (.ok op) →
    ∀ t ∈ op.targets, R t

namespace Shares

variable {R : Name → Prop} {p p' : Program}

/-- What is read for a reference is the same if what is read for the entity is. -/
theorem inner_eq (h : Shares R p p') {src : Source} {depth : Nat} {t : Name} (ht : R t)
    (heq : p.entity src depth t = p'.entity src depth t) :
    p.inner src depth t = p'.inner src depth t := by
  funext s
  rw [Program.inner, Program.inner, bind_apply, bind_apply, ← heq]
  cases hfound : p.entity src depth t s with
  | error fault u => rfl
  | ok n u =>
    cases n with
    | none => rfl
    | some n =>
      obtain rfl := entity_of_entity hfound
      have hvalue : p.nodeValue n = p'.nodeValue n := by
        rw [nodeValue, nodeValue, h.procedure n.entity ht]
      simp only [hvalue]

/-- What is read for an entity is the same. -/
theorem entity_eq (h : Shares R p p') (src : Source) (depth : Nat) :
    ∀ n, R n → p.entity src depth n = p'.entity src depth n := by
  induction depth with
  | zero => exact fun n _ => rfl
  | succ depth ih =>
    intro n hn
    have hcollect : p.collect src (depth + 1) n = p'.collect src (depth + 1) n := by
      rw [collect, collect, ← h.procedure n hn]
      cases hproc : p.procedure? n with
      | none => rfl
      | some proc =>
        cases hbody : proc.body with
        | none => simp only [hbody]
        | some body =>
          simp only [hbody]
          cases body with
          | error fault => rfl
          | ok op =>
            have hrun : op.run src (p.inner src depth) = op.run src (p'.inner src depth) :=
              Op.run_congr fun t ht => by
                have hcounts := h.onward n hn proc op hproc hbody t ht
                exact h.inner_eq hcounts (ih t hcounts)
            simp only [Run.check, pure_bind, hrun]
    rw [entity_eq_collect, entity_eq_collect, hcollect, h.procedure n hn]

/-- Every text is read as the same, or not read for the same reason. -/
theorem read_eq (h : Shares R p p') (hroot : p.root = p'.root) (hstart : R p.root)
    (hignore : p.ignore = p'.ignore) (hdepth : p.maxDepth = p'.maxDepth) (text : String) :
    p.read text = p'.read text := by
  have hsource : ∀ src, p.readSource src = p'.readSource src := by
    intro src
    have hfailure : p.failure = p'.failure := by
      funext s
      rw [failure, failure, hroot, hdepth]
    rw [readSource, readSource, h.entity_eq src _ _ hstart, hdepth, hroot, hfailure]
  rw [read, read, readTracing, readTracing, hsource, hignore]

end Shares

end Program

end Ebnf
