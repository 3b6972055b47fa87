import Straightedge.Binary64
import Straightedge.CommandLine.Execution
import Straightedge.Main
import Straightedge.Proofs.Registry.Index
import Straightedge.Proofs.Registry.Listing
import Straightedge.Proofs.Inversion
import Straightedge.Proofs.Plane.Rings
import Straightedge.Proofs.Registry.FreshNames
import Straightedge.Proofs.Registry.LeastNames
import Straightedge.Proofs.Session.Reachable
import Straightedge.Proofs.Session.Names
import Straightedge.Proofs.Session.Plans
import Straightedge.Proofs.Session.Atomicity
import Straightedge.Proofs.Session.Figures
import Straightedge.Proofs.Session.Accesses
import Straightedge.Proofs.Session.Finiteness
import Straightedge.Proofs.Session.Policy
import Straightedge.Proofs.Session.Renaming
import Straightedge.Proofs.Session.Tooltips
import Straightedge.Proofs.Script.Grammar
import Straightedge.Proofs.Script.Readers
import Straightedge.Proofs.Script.Soundness
import Straightedge.Proofs.Script.Stratified
import Straightedge.Proofs.Script.Completeness
import Straightedge.Proofs.Script.Skipping
import Straightedge.Proofs.Script.Lines
import Straightedge.Proofs.Session.ClosedCurves
import Straightedge.Proofs.Session.Footprint
import Straightedge.Proofs.Session.Collisions
import Straightedge.Proofs.Session.FiniteArguments
import Straightedge.Proofs.Script.FiniteLiterals
import Straightedge.Proofs.Plane.Exact
import Straightedge.Proofs.Plane.Division
import Straightedge.Proofs.Chart.Axes
import Straightedge.Proofs.Script.LineEnds
import Straightedge.Proofs.Script.LongestMatch
import Straightedge.Proofs.Script.Relations
import Straightedge.Proofs.Script.Renumbering
import Straightedge.Proofs.Script.Composition
import Straightedge.Proofs.Script.Calls
import Straightedge.Proofs.Script.KeywordNames
import Straightedge.Proofs.Plane.Rounding
import Straightedge.Proofs.Chart.FiniteAxes
import Straightedge.Proofs.Chart.SquareWindow
import Straightedge.Proofs.Session.Motions
import Straightedge.Proofs.Session.Inverses
import Straightedge.Proofs.Script.ErrorLines
import Straightedge.Proofs.Plane.RoundingErrors
import Straightedge.Proofs.Plane.Shoelace
import Straightedge.Proofs.Plane.Convexity
import Straightedge.Proofs.Plane.Ovals
import Straightedge.Proofs.Plane.RegularPolygons
import Straightedge.Proofs.Session.Outlines
import Straightedge.Proofs.Session.Centers
import Straightedge.Proofs.Session.Corners
import Straightedge.Proofs.Plane.CyclicRings
import Straightedge.Proofs.Plane.Intersections
import Straightedge.Proofs.Plane.Chords
import Straightedge.Proofs.Session.InfiniteLines
import Straightedge.Proofs.Plane.Circumcenters
import Straightedge.Proofs.Session.Circumcircles
import Straightedge.Proofs.Plane.Projections
import Straightedge.Proofs.Plane.Courses
import Straightedge.Proofs.Plane.Composites
import Straightedge.Proofs.Script.CarriageReturns
import Straightedge.Proofs.Script.BoundedWalks
import Straightedge.Proofs.Session.ArgumentForms
