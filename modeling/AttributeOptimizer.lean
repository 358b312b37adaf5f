import AttributeOptimizer.Main
import AttributeOptimizer.Expression.Build
import AttributeOptimizer.Expression.Display
import AttributeOptimizer.Sample
import AttributeOptimizer.Proofs.Rewriting
import AttributeOptimizer.Proofs.Passes
import AttributeOptimizer.Proofs.NormalForm
import AttributeOptimizer.Proofs.Fixpoint
import AttributeOptimizer.Proofs.Evaluation
import AttributeOptimizer.Proofs.Meaning
import AttributeOptimizer.Proofs.Fallbacks
import AttributeOptimizer.Proofs.ChangeBound
import AttributeOptimizer.Proofs.Alike
import AttributeOptimizer.Proofs.Lockstep
import AttributeOptimizer.Proofs.Numerals
import AttributeOptimizer.Proofs.ReadBack
import AttributeOptimizer.Proofs.Floats
import AttributeOptimizer.Proofs.Records
import AttributeOptimizer.Proofs.Spellings
import AttributeOptimizer.Proofs.RoundTrip
import AttributeOptimizer.Proofs.Samples
import AttributeOptimizer.Proofs.Nesting
import AttributeOptimizer.Proofs.FiniteDecimals
import AttributeOptimizer.Proofs.FiniteReading
import AttributeOptimizer.Proofs.FiniteTrees
import AttributeOptimizer.Proofs.FeedBack
import AttributeOptimizer.Proofs.FirstRaise
import AttributeOptimizer.Proofs.ChangeReport
import AttributeOptimizer.Proofs.Resuming
import AttributeOptimizer.Proofs.Bookkeeping
import AttributeOptimizer.Proofs.NonInterference
import AttributeOptimizer.Proofs.Promises
import AttributeOptimizer.Proofs.LookupChains
import AttributeOptimizer.Proofs.ConstantLookups
import AttributeOptimizer.Proofs.ConstantTuples
import AttributeOptimizer.Proofs.Likeness
import AttributeOptimizer.Proofs.Relocation
import AttributeOptimizer.Proofs.ChildVisits
import AttributeOptimizer.Proofs.Roles
import AttributeOptimizer.Proofs.Provenance
import AttributeOptimizer.Proofs.FlatEffects
import AttributeOptimizer.Proofs.EffectsAhead
