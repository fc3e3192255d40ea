import Weaving.Log.Settings
import Weaving.Main
import Weaving.Proofs.Likeness
import Weaving.Proofs.Cursor
import Weaving.Proofs.Borrowing
import Weaving.Proofs.Shortcuts
import Weaving.Proofs.Transparency
import Weaving.Proofs.ChainLives
import Weaving.Proofs.CallStack
import Weaving.Proofs.ChainsInForce
import Weaving.Proofs.StagedMatching
import Weaving.Proofs.Prefiltering
import Weaving.Proofs.PooledSources
import Weaving.Proofs.ConfigurationChanges
import Weaving.Proofs.FullCourses
import Weaving.Proofs.ReturnedTargets
import Weaving.Proofs.InvisibleAdvice
import Weaving.Proofs.StrategiesAgree
import Weaving.Proofs.ConfigurationHistories
import Weaving.Proofs.ContractChecks
import Weaving.Proofs.ContractTargets
import Weaving.Proofs.IntroducedContracts
import Weaving.Proofs.LateAdvisors
import Weaving.Proofs.ForeignMethods
import Weaving.Proofs.ComposedAdvice
import Weaving.Proofs.Retries
import Weaving.Proofs.IntroducedMethods
import Weaving.Proofs.ExecutionTexts
import Weaving.Proofs.FactoryOutcomes
import Weaving.Proofs.ClassTargets
import Weaving.Proofs.Phases
import Weaving.Proofs.ProxyEquality
import Weaving.Proofs.Adaptation
import Weaving.Proofs.ErrorSources
import Weaving.Proofs.WildcardMeaning
import Weaving.Proofs.Assignability
