import Mathlib

namespace YdbSdk.Data

/-! # A delivery pipeline

Items are accepted into a batch, wait to be sent, are sent and are acknowledged.
A broken connection takes back what was sent.  The stages are lists in acceptance
order, and every step keeps the stages together equal to what was accepted.
-/

structure Pipeline (α : Type) where
  accepted : List α
  acked : List α
  sent : List α
  waiting : List α
  batch : List α

namespace Pipeline

def Conserved (pipeline : Pipeline α) : Prop :=
  pipeline.acked ++ (pipeline.sent ++ (pipeline.waiting ++ pipeline.batch)) = pipeline.accepted

inductive Step : Pipeline α → Pipeline α → Prop where
  | accept (pipeline : Pipeline α) (item : α) :
      Step pipeline { pipeline with
        accepted := pipeline.accepted ++ [item], batch := pipeline.batch ++ [item] }
  | flush (pipeline : Pipeline α) :
      Step pipeline { pipeline with
        waiting := pipeline.waiting ++ pipeline.batch, batch := [] }
  | send (pipeline : Pipeline α) (front rest : List α) (split : pipeline.waiting = front ++ rest) :
      Step pipeline { pipeline with sent := pipeline.sent ++ front, waiting := rest }
  | acknowledge (pipeline : Pipeline α) (front rest : List α)
      (split : pipeline.sent = front ++ rest) :
      Step pipeline { pipeline with acked := pipeline.acked ++ front, sent := rest }
  | takeBack (pipeline : Pipeline α) :
      Step pipeline { pipeline with sent := [], waiting := pipeline.sent ++ pipeline.waiting }

theorem Step.conserved {after : Pipeline α} (step : Step before after)
    (conserved : before.Conserved) : after.Conserved := by
  unfold Conserved at conserved ⊢
  cases step with
  | accept item => simp [← conserved]
  | flush => simp [← conserved]
  | send front rest split => simp [← conserved, split]
  | acknowledge front rest split => simp [← conserved, split]
  | takeBack => simp [← conserved]

end Pipeline

end YdbSdk.Data
