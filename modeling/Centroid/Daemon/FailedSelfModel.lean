import Centroid.Daemon.ForecastTiming
import Centroid.Planner.FilledObservations

namespace Centroid

open CalibrationRecord

namespace CycleRunner

end CycleRunner

end Centroid
